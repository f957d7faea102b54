/-
This file models the indexer's event log, its checkpoints and the two operations
that write them.

`applyBlock` appends a block's events to the log, applies them to the projections
and writes a checkpoint, all in one transaction; `rollbackTo` deletes what lies
above a height and replays the remaining log. The scripts are those of `sync.ts`,
`projections.ts` and `db.ts`. Beside them stands what they are for: the database
of a list of blocks, to which a block is added and from which the last blocks are
taken away.
-/

import OpenSocial.Indexer.Chain
import OpenSocial.Indexer.Projections
import OpenSocial.Library.Session

namespace OpenSocial.Indexer

open Library Library.Script

/-! ### Rows -/

structure EventLogRow where
  height : ℕ
  txIndex : ℕ
  sequence : ℕ
  blockId : String
  blockTimestamp : ℕ
  txId : String
  contract : ContractName
  name : String
  data : String
  dataJson : Json
  impacted : List String
  deriving DecidableEq

/-- The primary key of the event log, and the cursor of a replay. -/
abbrev Position := ℤ ×ₗ ℤ ×ₗ ℤ

def positionOf (height txIndex sequence : ℕ) : Position :=
  toLex ((height : ℤ), toLex ((txIndex : ℤ), (sequence : ℤ)))

def EventLogRow.position (row : EventLogRow) : Position :=
  positionOf row.height row.txIndex row.sequence

structure CheckpointRow where
  height : ℕ
  blockId : String
  previousId : String
  timestamp : ℕ
  stateHash : String
  eventCount : ℕ
  deriving DecidableEq, Repr

/-- The tables of the log and of the projections. -/
structure IndexerDb where
  eventLog : List EventLogRow
  checkpoints : List CheckpointRow
  projections : Database

namespace IndexerDb

def empty : IndexerDb := ⟨[], [], .empty⟩

/-- `SELECT * FROM checkpoints ORDER BY height DESC LIMIT 1`. -/
def lastCheckpoint (db : IndexerDb) : Option CheckpointRow :=
  (Rows.orderBy CheckpointRow.height db.checkpoints).getLast?

def checkpointAt (db : IndexerDb) (height : ℕ) : Option CheckpointRow :=
  db.checkpoints.find? fun row => row.height = height

end IndexerDb

/-! ### Failures -/

inductive SyncError where
  | expectedHeight (height expected : ℕ)
  | doesNotExtend (height last : ℕ)
  | chainIdMismatch (reported expected : String)
  | forkNotAboveFinal (forkHeight target : ℕ)
  | forkBelowFinal (target : ℕ) (stored : String) (canonical : Option String)
  | didNotCatchUp
  deriving DecidableEq, Repr

def SyncError.message : SyncError → String
  | .expectedHeight height expected => s!"cannot apply block {height}: expected height {expected}"
  | .doesNotExtend height last =>
    s!"block {height} does not extend the stored block at {last} (fork)"
  | .chainIdMismatch reported expected =>
    s!"chain id mismatch: the node reports {reported} but the deployment manifest expects " ++
      s!"{expected}; refusing to index"
  | .forkNotAboveFinal forkHeight target =>
    s!"fork at height {forkHeight} is not above the final height {target}; refusing to roll back"
  | .forkBelowFinal target stored canonical =>
    s!"fork below the final height {target} (stored {stored}, canonical " ++
      canonical.getD "unknown" ++ "); refusing to roll back"
  | .didNotCatchUp => "syncToHead did not catch up"

/-- What a script or a sync step throws: a sync error, or an error of the database or the node. -/
inductive Failure where
  | sync (error : SyncError)
  | other (message : String)
  deriving DecidableEq, Repr

/-! ### The scripts -/

/-- What the log uses of other packages; `sha256` is the hex digest of some bytes followed by the
UTF-8 bytes of a JSON text. -/
structure Runtime where
  codec : EventCodec
  sdk : Sdk
  sha256 : Bytes → Json → String

/-- A script on the indexer's database. -/
abbrev DbScript := Script IndexerDb Failure

/-- The value of a hexadecimal digit. -/
def hexDigit (digit : Char) : Option ℕ :=
  if '0' ≤ digit ∧ digit ≤ '9' then some (digit.toNat - '0'.toNat)
  else if 'a' ≤ digit ∧ digit ≤ 'f' then some (digit.toNat - 'a'.toNat + 10)
  else if 'A' ≤ digit ∧ digit ≤ 'F' then some (digit.toNat - 'A'.toNat + 10)
  else none

/-- The bytes of pairs of hexadecimal digits, up to the first pair that is none. -/
def hexPairs : List Char → Bytes
  | high :: low :: rest =>
    match hexDigit high, hexDigit low with
    | some first, some second => UInt8.ofNat (16 * first + second) :: hexPairs rest
    | _, _ => []
  | _ => []

def hexToBytes (hex : String) : Bytes :=
  hexPairs (if hex.startsWith "0x" then hex.toList.drop 2 else hex.toList)

section Scripts

variable (runtime : Runtime)

/-- The JSON view of an event, as it is hashed and served. -/
def eventView (block : ChainBlock runtime.codec) (event : ChainEvent) : Json :=
  .object
    [("height", .string (toString block.height)), ("blockId", .string block.id),
      ("txIndex", .number event.txIndex), ("txId", .string event.txId),
      ("sequence", .number event.sequence), ("contract", .string event.event.contract.text),
      ("name", .string event.name), ("data", runtime.codec.toJsonValue event.event),
      ("impacted", .array (event.impacted.map .string))]

def eventViews (block : ChainBlock runtime.codec) : List Json :=
  block.events.map (eventView runtime block)

def computeStateHash (previous : Option String) (events : List Json) : String :=
  runtime.sha256 ((previous.filter (· ≠ "")).elim [] hexToBytes) (canonicalJson (.array events))

/-- The event log row of an event of a block. -/
def eventLogRow (block : ChainBlock runtime.codec) (event : ChainEvent) : EventLogRow where
  height := block.height
  txIndex := event.txIndex
  sequence := event.sequence
  blockId := block.id
  blockTimestamp := block.timestamp
  txId := event.txId
  contract := event.event.contract
  name := event.name
  data := event.raw
  dataJson := runtime.codec.toJsonValue event.event
  impacted := event.impacted

/-- The event of a block as the projections read it. -/
def logEvent {codec : EventCodec} (block : ChainBlock codec) (event : ChainEvent) : LogEvent :=
  ⟨block.height, block.timestamp, event.txIndex, event.sequence, event.txId, event.event⟩

/-- `INSERT INTO event_log`. -/
def insertEvent (row : EventLogRow) : DbScript Unit :=
  statement fun db =>
    if row.position ∈ db.eventLog.map EventLogRow.position then
      .error (.other ("UNIQUE constraint failed: event_log.height, event_log.tx_index, " ++
        "event_log.sequence"))
    else .ok ((), { db with eventLog := db.eventLog ++ [row] })

/-- `INSERT INTO checkpoints`. -/
def insertCheckpoint (row : CheckpointRow) : DbScript Unit :=
  statement fun db =>
    if row.height ∈ db.checkpoints.map CheckpointRow.height then
      .error (.other "UNIQUE constraint failed: checkpoints.height")
    else .ok ((), { db with checkpoints := db.checkpoints ++ [row] })

/-- `applyEvent`: the statements of an event's handler. -/
def applyLogEvent (event : LogEvent) : DbScript Unit :=
  run fun db => { db with projections := applyEvent runtime.sdk db.projections event }

/-- The block must be the direct successor of the last checkpoint (or the start height). -/
def extends? {codec : EventCodec} (last : Option CheckpointRow) (block : ChainBlock codec)
    (startHeight : ℕ) : Except Failure Unit :=
  let expected := last.elim startHeight fun row => row.height + 1
  if block.height ≠ expected then .error (.sync (.expectedHeight block.height expected))
  else
    match last with
    | none => .ok ()
    | some row =>
      if block.previous ≠ "" ∧ row.blockId ≠ block.previous then
        .error (.sync (.doesNotExtend block.height row.height))
      else .ok ()

/-- The checkpoint of a block above the last one. -/
def checkpointRow (last : Option CheckpointRow) (block : ChainBlock runtime.codec) :
    CheckpointRow where
  height := block.height
  blockId := block.id
  previousId := block.previous
  timestamp := block.timestamp
  stateHash := computeStateHash runtime (last.map CheckpointRow.stateHash) (eventViews runtime block)
  eventCount := block.events.length

/-- The log row of an event and its effect on the projections. -/
def recordEvent (block : ChainBlock runtime.codec) (event : ChainEvent) : DbScript Unit := do
  insertEvent (eventLogRow runtime block event)
  applyLogEvent runtime (logEvent block event)

/-- What `applyBlock` does inside its transaction. -/
def applyBlockBody (block : ChainBlock runtime.codec) (startHeight : ℕ) :
    DbScript CheckpointRow := do
  let last ← query IndexerDb.lastCheckpoint
  check (extends? last block startHeight)
  block.events.forM (recordEvent runtime block)
  insertCheckpoint (checkpointRow runtime last block)
  pure (checkpointRow runtime last block)

/-- Applies one block: log rows, projections and the checkpoint, atomically. -/
def applyBlock (block : ChainBlock runtime.codec) (startHeight : ℕ) : DbScript CheckpointRow :=
  transaction (applyBlockBody runtime block startHeight)

/-- Rehydrates a log row into an event, decoding the raw event bytes again. -/
def logEventFromRow (codec : EventCodec) (row : EventLogRow) : Option LogEvent :=
  (codec.decode row.name row.data).map fun event =>
    ⟨row.height, row.blockTimestamp, row.txIndex, row.sequence, row.txId, event⟩

/-- Removes every projection row. -/
def truncateProjections : DbScript Unit :=
  transaction (run fun db => { db with projections := .empty })

/-- One row of a replayed page, and the count of the events applied so far. -/
def replayRow (applied : ℕ) (row : EventLogRow) : DbScript ℕ :=
  match logEventFromRow runtime.codec row with
  | none => pure applied
  | some event => do
    applyLogEvent runtime event
    pure (applied + 1)

/-- The paging loop of a replay. A round that reads a row leaves fewer rows beyond the cursor, so
one round more than the log has rows never runs out. -/
def replayPages : ℕ → Position → ℕ → DbScript ℕ
  | 0, _, applied => pure applied
  | rounds + 1, cursor, applied => do
    let rows ← query fun db => Rows.page EventLogRow.position db.eventLog cursor 1000
    match rows.getLast? with
    | none => pure applied
    | some last => do
      let applied ← rows.foldlM (replayRow runtime) applied
      replayPages rounds last.position applied

/-- What `replayProjections` does inside its transaction. -/
def replayBody : DbScript ℕ := do
  truncateProjections
  let db ← peek
  replayPages runtime (db.eventLog.length + 1) (toLex (-1, toLex (-1, -1))) 0

/-- Truncates every projection table and re-applies the whole event log. -/
def replayLog : DbScript ℕ :=
  transaction (replayBody runtime)

/-- What `rollbackTo` does inside its transaction. -/
def rollbackBody (height : ℤ) : DbScript ℕ := do
  run fun db => { db with eventLog := db.eventLog.filter fun row => (row.height : ℤ) ≤ height }
  run fun db =>
    { db with checkpoints := db.checkpoints.filter fun row => (row.height : ℤ) ≤ height }
  replayLog runtime

/-- Drops every block above `height` from the log and checkpoints, then rebuilds the
projections. -/
def rollbackTo (height : ℤ) : DbScript ℕ :=
  transaction (rollbackBody runtime height)

end Scripts

/-! ### The database of a list of blocks -/

section Blocks

variable (runtime : Runtime)

/-- The database with one more block. -/
def extended (db : IndexerDb) (block : ChainBlock runtime.codec) : IndexerDb where
  eventLog := db.eventLog ++ block.events.map (eventLogRow runtime block)
  checkpoints := db.checkpoints ++ [checkpointRow runtime db.checkpoints.getLast? block]
  projections := (block.events.map (logEvent block)).foldl (applyEvent runtime.sdk) db.projections

/-- The database that a list of blocks fills. -/
def databaseOf (blocks : List (ChainBlock runtime.codec)) : IndexerDb :=
  blocks.foldl (extended runtime) .empty

/-- A block directly above another one, which it names as its predecessor if it names one. -/
def Extends {codec : EventCodec} (lower upper : ChainBlock codec) : Prop :=
  upper.height = lower.height + 1 ∧ (upper.previous ≠ "" → upper.previous = lower.id)

/-- A list of blocks from a start height upwards, each above the one before it. -/
def Linked {codec : EventCodec} (startHeight : ℕ) (blocks : List (ChainBlock codec)) : Prop :=
  blocks.IsChain Extends ∧ ∀ first ∈ blocks.head?, first.height = startHeight

end Blocks

end OpenSocial.Indexer

/-
This file models what the indexer reads from a node: the chain head, and blocks
with their decoded protocol events.

`parseBlockItem` turns a block as the RPC reports it into a `ChainBlock`. It
skips reverted transactions and events that are not of a configured contract,
and it numbers what it keeps, so a parsed block carries its events in canonical
order, each with the raw bytes it was decoded from.
-/

import OpenSocial.Indexer.Db
import OpenSocial.Library.Rows
import OpenSocial.Sdk.Json

namespace OpenSocial.Indexer

open Library

/-! ### Contracts and their events -/

/-- `CONTRACT_NAMES`. -/
inductive ContractName where
  | registry
  | identity
  | relationships
  | publications
  | communities
  | sponsorship
  | messaging
  | token
  deriving DecidableEq, Repr

def ContractName.text : ContractName → String
  | .registry => "registry"
  | .identity => "identity"
  | .relationships => "relationships"
  | .publications => "publications"
  | .communities => "communities"
  | .sponsorship => "sponsorship"
  | .messaging => "messaging"
  | .token => "token"

/-- The contract whose event this is. -/
def ProtocolEvent.contract : ProtocolEvent → ContractName
  | .identity _ => .identity
  | .relationships _ => .relationships
  | .publications _ => .publications
  | .communities _ => .communities
  | .registry _ => .registry
  | .messaging _ => .messaging
  | .token _ => .token
  | .sponsorship _ => .sponsorship

/-- What the indexer uses of the generated protobuf code: the event that raw base64url data encode
under an event name, if they do, and the JSON view of a decoded event. -/
structure EventCodec where
  decode : String → String → Option ProtocolEvent
  toJsonValue : ProtocolEvent → Json

/-- The address of every contract of a deployment. -/
abbrev Deployment := ContractName → String

/-- `decodeProtocolEvent`: events whose source is not the contract of their name are ignored. -/
def decodeProtocolEvent (codec : EventCodec) (source name raw : String) (deployment : Deployment) :
    Option ProtocolEvent :=
  (codec.decode name raw).filter fun event => deployment event.contract = source

/-! ### Heads and blocks -/

/-- A last irreversible height that is no finite number is absent. -/
structure ChainHead where
  height : ℕ
  id : String
  lastIrreversible : Option ℕ
  time : ℕ
  deriving DecidableEq, Repr

/-- A decoded protocol event with its canonical position in the block. -/
structure ChainEvent where
  txIndex : ℕ
  sequence : ℕ
  txId : String
  name : String
  raw : String
  event : ProtocolEvent
  impacted : List String
  deriving DecidableEq, Repr

def ChainEvent.position (event : ChainEvent) : ℕ ×ₗ ℕ :=
  toLex (event.txIndex, event.sequence)

/-- A block with its events in canonical order, each as decoded from its raw data. -/
structure ChainBlock (codec : EventCodec) where
  height : ℕ
  id : String
  previous : String
  timestamp : ℕ
  events : List ChainEvent
  identified : id ≠ ""
  ordered : Rows.Ordered ChainEvent.position events
  decoded : ∀ event ∈ events, codec.decode event.name event.raw = some event.event

/-! ### Block items -/

/-- An event of a receipt as the RPC reports it. -/
structure EventData where
  source : String
  name : String
  data : Option String
  impacted : Option (List String)

structure TransactionReceipt where
  id : Option String
  reverted : Bool
  events : Option (List EventData)

/-- Heights are the integers their texts denote, if they denote one. -/
structure BlockHeader where
  height : Option (Option ℤ)
  previous : Option String
  timestamp : Option ℕ

structure BlockJson where
  id : Option String
  header : Option BlockHeader

structure BlockItem where
  blockId : Option String
  blockHeight : Option (Option ℤ)
  block : Option BlockJson
  receipts : Option (List TransactionReceipt)

inductive ChainError where
  | noHeight
  | noId (height : ℕ)
  | noHeader (height : ℕ)
  deriving DecidableEq, Repr

section Parse

variable (codec : EventCodec) (deployment : Deployment)

/-- The decoded event at a position of a receipt. -/
def parseEvent (txIndex : ℕ) (txId : String) (entry : EventData × ℕ) : Option ChainEvent :=
  (decodeProtocolEvent codec entry.1.source entry.1.name (entry.1.data.getD "") deployment).map
    fun event =>
      ⟨txIndex, entry.2, txId, entry.1.name, entry.1.data.getD "", event, entry.1.impacted.getD []⟩

/-- The decoded events of a receipt; a reverted transaction has none. -/
def parseReceipt (entry : TransactionReceipt × ℕ) : List ChainEvent :=
  if entry.1.reverted then []
  else
    (entry.1.events.getD []).zipIdx.filterMap
      (parseEvent codec deployment entry.2 (entry.1.id.getD ""))

/-- The decoded events of a block's receipts. -/
def parseReceipts (receipts : List TransactionReceipt) : List ChainEvent :=
  receipts.zipIdx.flatMap (parseReceipt codec deployment)

variable {codec deployment}

theorem parseEvent_eq_some {txIndex : ℕ} {txId : String} {entry : EventData × ℕ}
    {event : ChainEvent} (parsed : parseEvent codec deployment txIndex txId entry = some event) :
    event.txIndex = txIndex ∧ event.sequence = entry.2 ∧
      codec.decode event.name event.raw = some event.event := by
  obtain ⟨decoded, found, rfl⟩ := Option.map_eq_some_iff.mp parsed
  exact ⟨rfl, rfl, (Option.filter_eq_some_iff.mp found).1⟩

theorem mem_parseReceipt {entry : TransactionReceipt × ℕ} {event : ChainEvent}
    (member : event ∈ parseReceipt codec deployment entry) :
    event.txIndex = entry.2 ∧ codec.decode event.name event.raw = some event.event := by
  unfold parseReceipt at member
  split at member
  · exact absurd member List.not_mem_nil
  · obtain ⟨source, _, parsed⟩ := List.mem_filterMap.mp member
    obtain ⟨index, _, decoded⟩ := parseEvent_eq_some parsed
    exact ⟨index, decoded⟩

/-- Numbering a list numbers it in strict order. -/
theorem pairwise_zipIdx {Entry : Type} (entries : List Entry) :
    entries.zipIdx.Pairwise fun first second => first.2 < second.2 := by
  have numbered : (entries.zipIdx.map Prod.snd).Pairwise (· < ·) := by
    rw [List.zipIdx_map_snd]
    exact List.pairwise_lt_range'
  exact List.pairwise_map.mp numbered

theorem ordered_parseReceipt (entry : TransactionReceipt × ℕ) :
    Rows.Ordered ChainEvent.position (parseReceipt codec deployment entry) := by
  unfold parseReceipt
  split
  · exact List.Pairwise.nil
  · refine (pairwise_zipIdx (entry.1.events.getD [])).filterMap _ ?_
    intro first second before early parsedEarly late parsedLate
    obtain ⟨sameIndex, sequence, _⟩ := parseEvent_eq_some parsedEarly
    obtain ⟨otherIndex, later, _⟩ := parseEvent_eq_some parsedLate
    refine Prod.Lex.toLex_lt_toLex.mpr (Or.inr ⟨?_, ?_⟩)
    · show early.txIndex = late.txIndex
      rw [sameIndex, otherIndex]
    · show early.sequence < late.sequence
      rw [sequence, later]
      exact before

/-- A block's parsed events are in canonical order. -/
theorem ordered_parseReceipts (receipts : List TransactionReceipt) :
    Rows.Ordered ChainEvent.position (parseReceipts codec deployment receipts) := by
  refine List.pairwise_flatMap.mpr ⟨fun entry _ => ordered_parseReceipt entry, ?_⟩
  refine (pairwise_zipIdx receipts).imp ?_
  intro first second before early memberEarly late memberLate
  refine Prod.Lex.toLex_lt_toLex.mpr (Or.inl ?_)
  show early.txIndex < late.txIndex
  rw [(mem_parseReceipt memberEarly).1, (mem_parseReceipt memberLate).1]
  exact before

/-- A block's parsed events are what their raw data decode to. -/
theorem decoded_parseReceipts (receipts : List TransactionReceipt) :
    ∀ event ∈ parseReceipts codec deployment receipts,
      codec.decode event.name event.raw = some event.event := by
  intro event member
  obtain ⟨entry, _, inside⟩ := List.mem_flatMap.mp member
  exact (mem_parseReceipt inside).2

end Parse

/-- `parseBlockItem`. -/
def parseBlockItem (codec : EventCodec) (deployment : Deployment) (item : BlockItem) :
    Except ChainError (ChainBlock codec) :=
  let header := item.block.bind BlockJson.header
  match (item.blockHeight <|> header.bind BlockHeader.height).join with
  | none => .error .noHeight
  | some height =>
    if height < 0 then .error .noHeight
    else
      let id := ((item.blockId <|> item.block.bind BlockJson.id).getD "")
      if unnamed : id = "" then .error (.noId height.toNat)
      else
        match header with
        | none => .error (.noHeader height.toNat)
        | some header =>
          .ok
            { height := height.toNat
              id := id
              previous := header.previous.getD ""
              timestamp := header.timestamp.getD 0
              events := parseReceipts codec deployment (item.receipts.getD [])
              identified := unnamed
              ordered := ordered_parseReceipts _
              decoded := decoded_parseReceipts _ }

/-- `getBlocks`: what the node returned of the asked heights, ascending. -/
def getBlocks {codec : EventCodec} (returned : List (ChainBlock codec)) (fromHeight count : ℕ) :
    List (ChainBlock codec) :=
  Rows.orderBy ChainBlock.height
    (returned.filter fun block => fromHeight ≤ block.height ∧ block.height < fromHeight + count)

end OpenSocial.Indexer

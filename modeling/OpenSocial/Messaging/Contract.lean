/-
This file models the messaging contract: conversations that a request opens, an
acceptance confirms and either side may close, and end-to-end encrypted messages
inside an accepted conversation.

A new request names the generation it found and starts the next one, so that an
old acceptance or retry never counts for it. Sending a stored message id again
with the same content changes nothing and answers the stored message.
-/

import OpenSocial.Common.Actor
import OpenSocial.Library.Machine
import OpenSocial.Library.Store

namespace OpenSocial.Messaging

open Library

/-! ### Records -/

/-- The status of a conversation: 1 requested, 2 accepted, 3 closed. -/
inductive ConversationStatus where
  | requested
  | accepted
  | closed
  deriving DecidableEq, Repr

structure ConversationRecord where
  a : Address
  b : Address
  requester : Address
  status : ConversationStatus
  generation : ℕ
  sequence : ℕ
  updatedAt : ℕ
  deriving DecidableEq, Repr

structure MessageRecord where
  sender : Address
  recipient : Address
  messageId : Bytes
  contentHash : Bytes
  generation : ℕ
  sequence : ℕ
  timestamp : ℕ
  deriving DecidableEq, Repr

structure Dependencies where
  identity : Address
  relationships : Address
  token : Address
  deriving DecidableEq, Repr

/-- The contract's object and maps. Conversations are keyed by the sorted pair, messages by
sender then message id. -/
structure State where
  config : Option Dependencies
  conversations : Store Bytes ConversationRecord
  messages : Store Bytes MessageRecord

/-- The `osp.messaging.*` events. -/
inductive Event where
  | conversationChanged (value : ConversationRecord) (timestamp : ℕ)
  | messageSent (value : MessageRecord) (envelope : Bytes) (timestamp : ℕ)
  deriving DecidableEq, Repr

/-- What an accepted call emits and answers; only `send_message` answers a message. -/
structure Output where
  events : List Event
  message : Option MessageRecord

/-! ### Arguments -/

structure SetDependenciesArguments where
  identity : Bytes
  relationships : Bytes
  token : Bytes

/-- The arguments of the three conversation methods. -/
structure ConversationArguments where
  actor : Bytes
  peer : Bytes
  device : Bytes
  generation : ℕ

structure SendMessageArguments where
  sender : Bytes
  recipient : Bytes
  device : Bytes
  messageId : Bytes
  generation : ℕ
  envelope : Bytes

/-! ### Internal helpers -/

/-- Key of a conversation: the smaller account first. -/
def pair (a b : Bytes) : Bytes :=
  if Util.compare a b < 0 then Util.concat [a, b] else Util.concat [b, a]

/-- Key of a message: sender || message id. -/
def messageKey (sender messageId : Bytes) : Bytes :=
  Util.concat [sender, messageId]

/-- `conversations.put` under the pair of two accounts. -/
def State.putConversation (state : State) (x y : Address) (record : ConversationRecord) : State :=
  { state with conversations := state.conversations.put (pair x.val y.val) record }

/-- `messages.put`. -/
def State.putMessage (state : State) (sender : Address) (messageId : Bytes)
    (record : MessageRecord) : State :=
  { state with messages := state.messages.put (messageKey sender.val messageId) record }

/-- The configured dependencies or revert. -/
def deps (state : State) : Except Failure Dependencies :=
  requireSome state.config "messaging not configured"

/-- One of the two block checks of `unblocked`. -/
def requireUnblocked (env : Env) (relationships : Address) (actor target : Bytes) :
    Except Failure Unit := do
  let blocked ← requireSome (env.isBlocked relationships.val actor target) "block check failed"
  require (!blocked) "conversation blocked"

/-- Revert when either party has blocked the other. -/
def unblocked (env : Env) (state : State) (a b : Address) : Except Failure Unit := do
  let dependencies ← deps state
  requireUnblocked env dependencies.relationships a.val b.val
  requireUnblocked env dependencies.relationships b.val a.val

/-- Require the actor's authority, of its owner or of a messaging device. -/
def authorize (env : Env) (state : State) (a b : Address) (device : Bytes) :
    Except Failure Unit := do
  require (a != b) "cannot message yourself"
  let dependencies ← deps state
  let _ ← Actor.requireAuthorized env dependencies.identity.val a.val device Capability.MESSAGING
  pure ()

/-- Charge one unit of usage. -/
def consume (env : Env) (state : State) (a : Address) : Except Failure Unit := do
  let dependencies ← deps state
  require (env.consume dependencies.token.val a.val 1) "usage allowance exhausted"

/-- The event of `emit`. -/
def emit (env : Env) (conversation : ConversationRecord) : List Event :=
  [.conversationChanged conversation env.now]

/-- A conversation that may be requested anew: none, or a closed one. -/
def requestable (old : Option ConversationRecord) : Bool :=
  old.elim true fun conversation => conversation.status == .closed

/-! ### Methods -/

def setDependencies (host : Host) (env : Env) (args : SetDependenciesArguments) (state : State) :
    Except Failure (State × Output) := do
  requireAuthority env host.contractId
  let identity ← Util.requireAddress args.identity "identity"
  let relationships ← Util.requireAddress args.relationships "relationships"
  let token ← Util.requireAddress args.token "token"
  pure ({ state with config := some ⟨identity, relationships, token⟩ }, ⟨[], none⟩)

def requestConversation (env : Env) (args : ConversationArguments) (state : State) :
    Except Failure (State × Output) := do
  let a ← Util.requireAddress args.actor "actor"
  let b ← Util.requireAddress args.peer "peer"
  authorize env state a b args.device
  unblocked env state a b
  let dependencies ← deps state
  let registered ← Actor.existsIdentity env dependencies.identity.val b.val
  require registered "peer not registered"
  let old := state.conversations.get (pair a.val b.val)
  require (requestable old) "conversation already requested or accepted"
  require (args.generation == old.elim 0 ConversationRecord.generation)
    "conversation changed; refresh"
  require (args.generation < 2 ^ 64 - 1) "conversation generation exhausted"
  consume env state a
  let conversation : ConversationRecord :=
    { a := if Util.compare a.val b.val < 0 then a else b
      b := if Util.compare a.val b.val < 0 then b else a
      requester := a
      status := .requested
      generation := args.generation + 1
      sequence := old.elim 0 ConversationRecord.sequence
      updatedAt := env.now }
  pure (state.putConversation a b conversation, ⟨emit env conversation, none⟩)

def acceptConversation (env : Env) (args : ConversationArguments) (state : State) :
    Except Failure (State × Output) := do
  let a ← Util.requireAddress args.actor "actor"
  let b ← Util.requireAddress args.peer "peer"
  authorize env state a b args.device
  unblocked env state a b
  let found ← requireSome ((state.conversations.get (pair a.val b.val)).filter
    fun conversation => conversation.status == .requested &&
      conversation.generation == args.generation) "no matching invitation"
  require (found.requester == b) "only the recipient may accept"
  let conversation := { found with status := .accepted, updatedAt := env.now }
  pure (state.putConversation a b conversation, ⟨emit env conversation, none⟩)

def closeConversation (env : Env) (args : ConversationArguments) (state : State) :
    Except Failure (State × Output) := do
  let a ← Util.requireAddress args.actor "actor"
  let b ← Util.requireAddress args.peer "peer"
  authorize env state a b args.device
  let found ← requireSome ((state.conversations.get (pair a.val b.val)).filter
    fun conversation => conversation.generation == args.generation) "conversation changed; refresh"
  let conversation := { found with status := .closed, updatedAt := env.now }
  pure (state.putConversation a b conversation, ⟨emit env conversation, none⟩)

/-- Store a message that is not stored yet. -/
def storeMessage (env : Env) (a b : Address) (messageId hash envelope : Bytes) (generation : ℕ)
    (state : State) : Except Failure (State × Output) := do
  unblocked env state a b
  let found ← requireSome ((state.conversations.get (pair a.val b.val)).filter
    fun conversation => conversation.status == .accepted && conversation.generation == generation)
    "recipient must accept this conversation first"
  require (found.sequence < 2 ^ 64 - 1) "message sequence exhausted"
  consume env state a
  let conversation := { found with sequence := found.sequence + 1, updatedAt := env.now }
  let message : MessageRecord :=
    ⟨a, b, messageId, hash, generation, conversation.sequence, env.now⟩
  pure ((state.putConversation a b conversation).putMessage a messageId message,
    ⟨[.messageSent message envelope env.now], some message⟩)

/-- Send a message; the id of a stored message answers that message, if the content agrees. -/
def sendMessage (host : Host) (env : Env) (args : SendMessageArguments) (state : State) :
    Except Failure (State × Output) := do
  let a ← Util.requireAddress args.sender "sender"
  let b ← Util.requireAddress args.recipient "recipient"
  authorize env state a b args.device
  let messageId ← Util.requireBytes args.messageId 32 "message id"
  require (messageId.length == 32) "message id must be 32 bytes"
  let envelope ← Util.requireBytes args.envelope 4096 "encrypted envelope"
  let hash := (host.hash envelope).drop 2
  match state.messages.get (messageKey a.val messageId) with
  | some existing => do
    require (existing.recipient == b && existing.generation == args.generation &&
      existing.contentHash == hash) "message id already used for different content"
    pure (state, ⟨[], some existing⟩)
  | none => storeMessage env a b messageId hash envelope args.generation state

/-! ### The contract as a transaction machine -/

/-- One call of a mutating method. -/
inductive Operation where
  | setDependencies (args : SetDependenciesArguments)
  | requestConversation (args : ConversationArguments)
  | acceptConversation (args : ConversationArguments)
  | closeConversation (args : ConversationArguments)
  | sendMessage (args : SendMessageArguments)

/-- A method call together with the environment it runs in. -/
structure Call where
  env : Env
  operation : Operation

/-- The block time of a call. -/
def Call.time (call : Call) : ℕ := call.env.now

def execute (host : Host) (state : State) (call : Call) : Except Failure (State × Output) :=
  match call.operation with
  | .setDependencies args => setDependencies host call.env args state
  | .requestConversation args => requestConversation call.env args state
  | .acceptConversation args => acceptConversation call.env args state
  | .closeConversation args => closeConversation call.env args state
  | .sendMessage args => sendMessage host call.env args state

def empty : State := ⟨none, ∅, ∅⟩

/-- The messaging contract from its empty store. -/
def machine (host : Host) : Machine State Call Output Failure := ⟨empty, execute host⟩

/-! ### Read methods -/

def getConversation (state : State) (a b : Bytes) : Except Failure (Option ConversationRecord) := do
  let a ← Util.requireAddress a "a"
  let b ← Util.requireAddress b "b"
  pure (state.conversations.get (pair a.val b.val))

def getMessage (state : State) (sender messageId : Bytes) :
    Except Failure (Option MessageRecord) := do
  let sender ← Util.requireAddress sender "sender"
  let messageId ← Util.requireBytes messageId 32 "message id"
  pure (state.messages.get (messageKey sender.val messageId))

end OpenSocial.Messaging

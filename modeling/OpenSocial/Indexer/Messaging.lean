/-
This file compares the messaging and token projections with the two contracts.

The token accounts are those of the contract after every run, and the messages
table mirrors it. A conversation does not
always: a new message advances the sequence of its conversation, and its event
tells of the message only. The row and the record of a pair agree exactly when
no message was stored since the conversation was last requested, accepted or
closed.
-/

import OpenSocial.Indexer.Projections
import OpenSocial.Library.Mirror
import OpenSocial.Messaging.Effects
import OpenSocial.Token.Effects

namespace OpenSocial.Indexer

open Library Messaging

/-! ### What is compared -/

/-- The two accounts of a conversation, the smaller one first. -/
def sortedAccounts (x y : Address) : Address × Address :=
  sortedPair (fun x y : Address => Util.compare x.val y.val < 0) x y

theorem pair_eq_sortedAccounts (x y : Address) :
    pair x.val y.val =
      Util.concat [(sortedAccounts x y).1.val, (sortedAccounts x y).2.val] :=
  pair_eq_sortedPair x y

theorem sortedAccounts_eq (x y : Address) :
    sortedAccounts x y =
      (if Util.compare x.val y.val < 0 then x else y,
        if Util.compare x.val y.val < 0 then y else x) := by
  unfold sortedAccounts sortedPair
  by_cases before : Util.compare x.val y.val < 0
  · rw [if_pos before, if_pos before, if_pos (by simpa using before)]
  · rw [if_neg before, if_neg before, if_neg (by simpa using before)]

/-- Conversations are kept under the sorted pair by both. -/
def conversationLink :
    Correspondence (Address × Address) (Address × Address) Bytes ConversationRow
      ConversationRecord (ConversationRecord × ℕ) where
  tableKey accounts := sortedAccounts accounts.1 accounts.2
  storeKey accounts := pair accounts.1.val accounts.2.val
  aligned first second := by
    rw [pair_eq_sortedAccounts, pair_eq_sortedAccounts, Util.concat_addresses_inj]
  ofRow row := (row.value, row.updatedAt)
  ofRecord record := (record, record.updatedAt)

/-- What both hold of a message: the columns and the record. -/
structure MessageView where
  recipient : Address
  sequence : ℕ
  value : MessageRecord
  deriving DecidableEq, Repr

/-- Messages are kept under sender and message id by both. -/
def messageLink :
    Correspondence (Address × Bytes) (Address × Bytes) Bytes DirectMessageRow MessageRecord
      MessageView where
  tableKey := id
  storeKey message := messageKey message.1.val message.2
  aligned first second := by
    rw [messageKey, messageKey, Util.concat_address_inj, id, id, Prod.ext_iff]
  ofRow row := ⟨row.recipient, row.sequence, row.value⟩
  ofRecord record := ⟨record.recipient, record.sequence, record⟩

/-! ### One call -/

/-- A stored conversation names the sorted pair of its key. -/
def ConversationsSorted (state : State) : Prop :=
  ∀ x y record, state.conversations.get (pair x.val y.val) = some record →
    (record.a, record.b) = sortedAccounts x y

/-- What is known of a conversation, by whether a message was stored since it last changed: its row
agrees with its record, or is behind it. -/
def ConversationTracked (db : Database) (state : State) (x y : Address) (behind : Bool) : Prop :=
  if behind then
    ∃ row record, db.conversations.get (sortedAccounts x y) = some row ∧
      state.conversations.get (pair x.val y.val) = some record ∧
      row.value.sequence < record.sequence
  else conversationLink.Agrees db.conversations state.conversations (x, y)

theorem agrees_iff_of_conversationTracked {db : Database} {state : State} {x y : Address}
    {behind : Bool} (tracked : ConversationTracked db state x y behind) :
    conversationLink.Agrees db.conversations state.conversations (x, y) ↔ behind = false := by
  cases behind with
  | false => exact ⟨fun _ => rfl, fun _ => tracked⟩
  | true =>
    refine ⟨fun agree => ?_, fun same => absurd same (by decide)⟩
    obtain ⟨row, record, present, stored, earlier⟩ := tracked
    have agree : (db.conversations.get (sortedAccounts x y)).map conversationLink.ofRow =
      (state.conversations.get (pair x.val y.val)).map conversationLink.ofRecord := agree
    rw [present, stored, Option.map_some, Option.map_some, Option.some.injEq] at agree
    have same : row.value = record := (Prod.mk.inj agree).1
    rw [same] at earlier
    exact absurd earlier (lt_irrefl _)

section Step

variable (sdk : Sdk) {host : Host} {env : Env} {operation : Operation} {state after : State}
  {output : Output} {db next : Database} {records : List LogEvent}

/-- What happens to a conversation depends on its row and its record alone. -/
theorem conversationTracked_congr {x y : Address} {behind : Bool}
    (rows : next.conversations.get (sortedAccounts x y) = db.conversations.get (sortedAccounts x y))
    (stored : after.conversations.get (pair x.val y.val) =
      state.conversations.get (pair x.val y.val))
    (tracked : ConversationTracked db state x y behind) :
    ConversationTracked next after x y behind := by
  cases behind with
  | true =>
    obtain ⟨row, record, present, known, earlier⟩ := tracked
    exact ⟨row, record, rows.trans present, stored.trans known, earlier⟩
  | false =>
    have agree : (db.conversations.get (sortedAccounts x y)).map conversationLink.ofRow =
      (state.conversations.get (pair x.val y.val)).map conversationLink.ofRecord := tracked
    rw [← rows, ← stored] at agree
    exact agree

/-- A conversation that names its sorted pair may be written. -/
theorem ConversationsSorted.put (sorted : ConversationsSorted state) {a b : Address}
    {record : ConversationRecord} (named : (record.a, record.b) = sortedAccounts a b)
    (written : after.conversations = state.conversations.put (pair a.val b.val) record) :
    ConversationsSorted after := by
  intro x y stored present
  rw [written, Store.get_put] at present
  split at present
  · next same =>
    rw [← Option.some.inj present, named]
    rw [pair_eq_sortedAccounts, pair_eq_sortedAccounts, Util.concat_addresses_inj] at same
    exact same.symm
  · exact sorted x y stored present

theorem sortedAccounts_requestedRecord (a b : Address) (old : Option ConversationRecord)
    (now : ℕ) :
    ((requestedRecord a b old now).a, (requestedRecord a b old now).b) = sortedAccounts a b := by
  rw [sortedAccounts_eq, requestedRecord]

theorem conversationsSorted_step (effect : Effect host env state operation after output)
    (sorted : ConversationsSorted state) : ConversationsSorted after := by
  cases effect with
  | dependenciesSet identity relationships token authorized => exact sorted
  | requested a b device dependencies different configured authorized free registered reopened room
      charged => exact sorted.put (sortedAccounts_requestedRecord a b _ env.now) rfl
  | accepted a b device dependencies found different configured authorized free known invited
      invitee =>
    refine sorted.put ?_ rfl
    exact sorted a b found known
  | closed a b device dependencies found different configured authorized known =>
    refine sorted.put ?_ rfl
    exact sorted a b found known
  | repeated a b device messageId envelope dependencies existing different configured authorized
      idLength stored sameRecipient sameContent => exact sorted
  | sent a b device messageId envelope dependencies found different configured authorized idLength
      fresh free known opened room charged =>
    refine sorted.put ?_ rfl
    exact sorted a b found known

/-- Reporting a conversation brings its row up to date and leaves the others. -/
theorem conversationTracked_changed {a b x y : Address} {record : ConversationRecord}
    {behind : Bool} (named : (record.a, record.b) = sortedAccounts a b)
    (rows : next.conversations =
      db.conversations.put (record.a, record.b) ⟨record, record.updatedAt⟩)
    (written : after.conversations = state.conversations.put (pair a.val b.val) record)
    (tracked : ConversationTracked db state x y behind) :
    ConversationTracked next after x y
      (if pair a.val b.val == pair x.val y.val then false else behind || false) := by
  rw [named] at rows
  rw [Bool.or_false]
  by_cases same : pair x.val y.val = pair a.val b.val
  · rw [if_pos (by rw [same, beq_self_eq_true])]
    have own : conversationLink.Agrees next.conversations after.conversations (a, b) := by
      rw [rows, written]
      show conversationLink.Agrees (db.conversations.put (conversationLink.tableKey (a, b)) _)
        (state.conversations.put (conversationLink.storeKey (a, b)) record) (a, b)
      exact Correspondence.agrees_put rfl
    have alike : conversationLink.storeKey (x, y) = conversationLink.storeKey (a, b) := same
    exact (Correspondence.agrees_congr alike).mpr own
  · have different : sortedAccounts x y ≠ sortedAccounts a b :=
      fun equal => same ((conversationLink.aligned (x, y) (a, b)).mp equal)
    rw [beq_false_of_ne fun equal => same equal.symm, if_neg (by decide)]
    refine conversationTracked_congr ?_ ?_ tracked
    · rw [rows, Store.get_put, if_neg different]
    · rw [written, Store.get_put, if_neg same]

/-- A new message leaves the row of its conversation behind. -/
theorem conversationTracked_sent {a b x y : Address} {found : ConversationRecord} {now : ℕ}
    {behind : Bool} (known : state.conversations.get (pair a.val b.val) = some found)
    (rows : next.conversations = db.conversations)
    (written : after.conversations =
      state.conversations.put (pair a.val b.val) (advanced found now))
    (tracked : ConversationTracked db state x y behind) :
    ConversationTracked next after x y
      (behind || pair a.val b.val == pair x.val y.val) := by
  by_cases same : pair x.val y.val = pair a.val b.val
  · rw [same, beq_self_eq_true, Bool.or_true]
    have stored : state.conversations.get (pair x.val y.val) = some found := same ▸ known
    have later : after.conversations.get (pair x.val y.val) = some (advanced found now) := by
      rw [written, Store.get_put, if_pos same]
    cases behind with
    | true =>
      obtain ⟨row, record, present, before, earlier⟩ := tracked
      obtain rfl := Option.some.inj (stored.symm.trans before)
      exact ⟨row, advanced found now, by rw [rows, present], later,
        earlier.trans (Nat.lt_succ_self _)⟩
    | false =>
      have agree : (db.conversations.get (sortedAccounts x y)).map conversationLink.ofRow =
        (state.conversations.get (pair x.val y.val)).map conversationLink.ofRecord := tracked
      rw [stored, Option.map_some, Option.map_eq_some_iff] at agree
      obtain ⟨row, present, view⟩ := agree
      have shown : row.value = found := (Prod.mk.inj view).1
      refine ⟨row, advanced found now, by rw [rows, present], later, ?_⟩
      rw [shown]
      exact Nat.lt_succ_self _
  · rw [beq_false_of_ne fun equal => same equal.symm, Bool.or_false]
    refine conversationTracked_congr (by rw [rows]) ?_ tracked
    rw [written, Store.get_put, if_neg same]

theorem conversations_step (effect : Effect host env state operation after output)
    (logs : records.map LogEvent.event = output.events.map .messaging)
    (sorted : ConversationsSorted state) (x y : Address) {behind : Bool}
    (tracked : ConversationTracked db state x y behind) :
    ConversationTracked (records.foldl (applyEvent sdk) db) after x y
      (if changesConversation (pair x.val y.val) operation then false
        else behind || sendsMessage (pair x.val y.val) state operation) := by
  cases effect with
  | dependenciesSet identity relationships token authorized =>
    rw [List.map_eq_nil_iff.mp logs]
    show ConversationTracked db _ x y (behind || false)
    rw [Bool.or_false]
    exact tracked
  | requested a b device dependencies different configured authorized free registered reopened room
      charged =>
    obtain ⟨log, event, applied⟩ := foldl_applyEvent_singleton sdk db logs
    rw [applied, applyEvent, event]
    exact conversationTracked_changed (sortedAccounts_requestedRecord a b _ env.now) rfl rfl tracked
  | accepted a b device dependencies found different configured authorized free known invited
      invitee =>
    obtain ⟨log, event, applied⟩ := foldl_applyEvent_singleton sdk db logs
    rw [applied, applyEvent, event]
    refine conversationTracked_changed ?_ rfl rfl tracked
    exact sorted a b found known
  | closed a b device dependencies found different configured authorized known =>
    obtain ⟨log, event, applied⟩ := foldl_applyEvent_singleton sdk db logs
    rw [applied, applyEvent, event]
    refine conversationTracked_changed ?_ rfl rfl tracked
    exact sorted a b found known
  | repeated a b device messageId envelope dependencies existing different configured authorized
      idLength stored sameRecipient sameContent =>
    rw [List.map_eq_nil_iff.mp logs]
    have held : state.messages.has (messageKey a.val messageId) = true :=
      (Store.has_eq_true _ _).mpr ⟨existing, stored⟩
    show ConversationTracked db _ x y (behind ||
      (pair a.val b.val == pair x.val y.val && !state.messages.has (messageKey a.val messageId)))
    rw [held, Bool.not_true, Bool.and_false, Bool.or_false]
    exact tracked
  | sent a b device messageId envelope dependencies found different configured authorized idLength
      fresh free known opened room charged =>
    obtain ⟨log, event, applied⟩ := foldl_applyEvent_singleton sdk db logs
    rw [applied, applyEvent, event]
    have unheld : state.messages.has (messageKey a.val messageId) = false :=
      (Store.has_eq_false _ _).mpr fresh
    show ConversationTracked _ _ x y (behind ||
      (pair a.val b.val == pair x.val y.val && !state.messages.has (messageKey a.val messageId)))
    rw [unheld, Bool.not_false, Bool.and_true]
    exact conversationTracked_sent known rfl rfl tracked

/-- The messages table after the events of a call mirrors what the call stored. -/
theorem messages_step (effect : Effect host env state operation after output)
    (logs : records.map LogEvent.event = output.events.map .messaging)
    (mirrors : messageLink.Mirrors db.directMessages state.messages) :
    messageLink.Mirrors (records.foldl (applyEvent sdk) db).directMessages after.messages := by
  cases effect with
  | dependenciesSet identity relationships token authorized =>
    rw [List.map_eq_nil_iff.mp logs]
    exact mirrors
  | requested a b device dependencies different configured authorized free registered reopened room
      charged =>
    obtain ⟨log, event, applied⟩ := foldl_applyEvent_singleton sdk db logs
    rw [applied, applyEvent, event]
    exact mirrors
  | accepted a b device dependencies found different configured authorized free known invited
      invitee =>
    obtain ⟨log, event, applied⟩ := foldl_applyEvent_singleton sdk db logs
    rw [applied, applyEvent, event]
    exact mirrors
  | closed a b device dependencies found different configured authorized known =>
    obtain ⟨log, event, applied⟩ := foldl_applyEvent_singleton sdk db logs
    rw [applied, applyEvent, event]
    exact mirrors
  | repeated a b device messageId envelope dependencies existing different configured authorized
      idLength stored sameRecipient sameContent =>
    rw [List.map_eq_nil_iff.mp logs]
    exact mirrors
  | sent a b device messageId envelope dependencies found different configured authorized idLength
      fresh free known opened room charged =>
    obtain ⟨log, event, applied⟩ := foldl_applyEvent_singleton sdk db logs
    rw [applied, applyEvent, event]
    have absent : db.directMessages.get (a, messageId) = none := mirrors.absent fresh
    simp only [applyMessaging]
    rw [Store.putNew_of_get_eq_none _ _ _ absent]
    exact mirrors.put rfl

end Step

/-! ### Token accounts -/

section Token

variable (sdk : Sdk) {db : Database} {records : List LogEvent}

/-- What an event of the token contract does to the accounts. -/
def savedAccount (accounts : Store Bytes Token.AccountState) :
    Token.Event → Store Bytes Token.AccountState
  | .accountUpdated account value _ => accounts.put account value
  | _ => accounts

theorem foldl_tokenAccounts {events : List Token.Event}
    (logs : records.map LogEvent.event = events.map .token) :
    (records.foldl (applyEvent sdk) db).tokenAccounts =
      events.foldl savedAccount db.tokenAccounts := by
  induction events generalizing records db with
  | nil =>
    rw [List.map_eq_nil_iff.mp logs]
    rfl
  | cons event events inductionHypothesis =>
    obtain ⟨log, rest, carried, others, applied⟩ := foldl_applyEvent_cons sdk db logs
    rw [applied, inductionHypothesis others, applyEvent, carried]
    cases event with
    | _ => rfl

/-- Every account a call changes is reported as it is stored. -/
theorem foldl_savedAccount {host : Host} {env : Env} {operation : Token.Operation}
    {state after : Token.State} {output : Token.Output}
    (effect : Token.Effect host env state operation after output) :
    output.events.foldl savedAccount state.accounts = after.accounts := by
  cases effect with
  | initialized identity relationships publications messaging authorized unset => rfl
  | policyChanged rewardAmount dailyRewardCap recipientDailyCap config authorized configured
      amountBound dailyBound recipientBound => rfl
  | consumed account units config configured positive bounded affordable => rfl
  | transferred sender recipient value config signer different configured authorized positive
      funded => rfl
  | burnt sender value config signer configured authorized positive funded => rfl
  | supported actor id device config post signer configured idLength authorized found active
      different fresh affordable =>
    unfold Token.mintEvents Token.mintedState
    split
    · rfl
    · rfl

theorem tokenAccounts_step {host : Host} {env : Env} {operation : Token.Operation}
    {state after : Token.State} {output : Token.Output}
    (effect : Token.Effect host env state operation after output)
    (logs : records.map LogEvent.event = output.events.map .token)
    (same : db.tokenAccounts = state.accounts) :
    (records.foldl (applyEvent sdk) db).tokenAccounts = after.accounts := by
  rw [foldl_tokenAccounts sdk logs, same, foldl_savedAccount effect]

end Token

/-! ### The tables of the other contract -/

section Frame

variable (sdk : Sdk) (db : Database) {records : List LogEvent}

/-- The events of the messaging contract write no token account. -/
theorem tokenAccounts_of_messaging {events : List Messaging.Event}
    (logs : records.map LogEvent.event = events.map .messaging) :
    (records.foldl (applyEvent sdk) db).tokenAccounts = db.tokenAccounts := by
  refine foldl_applyEvent_keeps sdk (fun current => current.tokenAccounts = db.tokenAccounts) rfl
    fun log member current kept => ?_
  obtain ⟨data, -, event⟩ := List.mem_map.mp (logs ▸ List.mem_map_of_mem member)
  rw [applyEvent, ← event]
  show (applyMessaging current log data).tokenAccounts = db.tokenAccounts
  obtain ⟨_, _, applied⟩ := applyMessaging_eq current log data
  rw [applied]
  exact kept

/-- The events of the token contract write neither conversations nor messages. -/
theorem conversations_of_token {events : List Token.Event}
    (logs : records.map LogEvent.event = events.map .token) :
    (records.foldl (applyEvent sdk) db).conversations = db.conversations ∧
      (records.foldl (applyEvent sdk) db).directMessages = db.directMessages := by
  refine foldl_applyEvent_keeps sdk
    (fun current => current.conversations = db.conversations ∧
      current.directMessages = db.directMessages) ⟨rfl, rfl⟩
    fun log member current kept => ?_
  obtain ⟨data, -, event⟩ := List.mem_map.mp (logs ▸ List.mem_map_of_mem member)
  rw [applyEvent, ← event]
  show (applyToken current log data).conversations = db.conversations ∧
    (applyToken current log data).directMessages = db.directMessages
  obtain ⟨_, _, applied⟩ := applyToken_eq current log data
  rw [applied]
  exact kept

end Frame

/-! ### Every interleaved run -/

/-- The two contracts, called in any order. -/
def chatMachine (host : Host) :
    Machine (State × Token.State) (Call ⊕ Token.Call) (Output ⊕ Token.Output)
      OpenSocial.Failure :=
  interleave (machine host) (Token.machine host)

/-- What the event log records of a call of one of them. -/
def chatEvents : Output ⊕ Token.Output → List ProtocolEvent :=
  Sum.elim (fun output => output.events.map .messaging) fun output => output.events.map .token

def chatEmpty : State × Token.State :=
  (Messaging.empty, Token.empty)

section Run

variable (sdk : Sdk) (host : Host)

/-- The accepted call changes the conversation with a key. -/
def changes (key : Bytes) (entry : (chatMachine host).Accepted) : Bool :=
  entry.call.elim (fun call => changesConversation key call.operation) fun _ => false

/-- The accepted call stores a new message in the conversation with a key. -/
def stores (key : Bytes) (entry : (chatMachine host).Accepted) : Bool :=
  entry.call.elim (fun call => sendsMessage key entry.before.1 call.operation) fun _ => false

/-- A message was stored since the conversation with a key last changed. -/
def unreported (key : Bytes) (history : List (chatMachine host).Accepted) : Bool :=
  Machine.since (stores host key) (changes host key) history

/-- The invariant of an interleaved run. -/
structure ChatTracked (history : List (chatMachine host).Accepted) (state : State × Token.State)
    (db : Database) : Prop where
  sorted : ConversationsSorted state.1
  conversations : ∀ x y : Address, ConversationTracked db state.1 x y
    (unreported host (pair x.val y.val) history)
  messages : messageLink.Mirrors db.directMessages state.1.messages
  accounts : db.tokenAccounts = state.2.accounts

theorem chatTracked_step {history : List (chatMachine host).Accepted}
    (entry : (chatMachine host).Accepted) {db : Database} {records : List LogEvent}
    (logs : records.map LogEvent.event = chatEvents entry.output)
    (tracked : ChatTracked host history entry.before db) :
    ChatTracked host (history ++ [entry]) entry.after (records.foldl (applyEvent sdk) db) := by
  rcases interleave_accepted entry with
    ⟨own, before, call, after, output⟩ | ⟨own, before, call, after, output⟩
  · have effect := Messaging.effect_of_entry own
    rw [output] at logs
    rw [before] at effect
    exact
      { sorted := by
          rw [after]
          exact conversationsSorted_step effect tracked.sorted
        conversations := fun x y => by
          rw [after, unreported, Machine.since_concat, changes, stores, call]
          exact conversations_step sdk effect logs tracked.sorted x y (tracked.conversations x y)
        messages := by
          rw [after]
          exact messages_step sdk effect logs tracked.messages
        accounts := by
          rw [after, tokenAccounts_of_messaging sdk db logs]
          exact tracked.accounts }
  · have effect := Token.effect_of_entry own
    rw [output] at logs
    rw [before] at effect
    obtain ⟨conversations, messages⟩ := conversations_of_token sdk db logs
    exact
      { sorted := by
          rw [after]
          exact tracked.sorted
        conversations := fun x y => by
          rw [after, unreported, Machine.since_concat, changes, stores, call]
          show ConversationTracked _ entry.before.1 x y
            (unreported host (pair x.val y.val) history || false)
          rw [Bool.or_false]
          exact conversationTracked_congr (by rw [conversations]) rfl (tracked.conversations x y)
        messages := by
          rw [after, messages]
          exact tracked.messages
        accounts := by
          rw [after]
          exact tokenAccounts_step sdk effect logs tracked.accounts }

/-- The tables show every conversation, message and token account as the contracts have them. -/
structure ChatRefined (db : Database) (state : State × Token.State) : Prop where
  conversations : conversationLink.Mirrors db.conversations state.1.conversations
  messages : messageLink.Mirrors db.directMessages state.1.messages
  accounts : db.tokenAccounts = state.2.accounts

/-- After every interleaved run and every log of it, the messages and the token accounts agree, and
the conversation of a pair agrees exactly when no message was stored since it last changed. -/
theorem chat_refined_iff (calls : List (Call ⊕ Token.Call)) (records : List LogEvent)
    (logs : (chatMachine host).Logs chatEvents LogEvent.event
      ((chatMachine host).history chatEmpty calls) records) :
    messageLink.Mirrors (replayProjections sdk records).directMessages
        ((chatMachine host).final chatEmpty calls).1.messages ∧
      (replayProjections sdk records).tokenAccounts =
        ((chatMachine host).final chatEmpty calls).2.accounts ∧
      (∀ x y : Address,
        conversationLink.Agrees (replayProjections sdk records).conversations
            ((chatMachine host).final chatEmpty calls).1.conversations (x, y) ↔
          unreported host (pair x.val y.val) ((chatMachine host).history chatEmpty calls) =
            false) ∧
      (ChatRefined (replayProjections sdk records) ((chatMachine host).final chatEmpty calls) ↔
        ∀ x y : Address,
          unreported host (pair x.val y.val) ((chatMachine host).history chatEmpty calls) =
            false) := by
  have tracked := (chatMachine host).projection_induction chatEvents LogEvent.event
    (applyEvent sdk) chatEmpty .empty (ChatTracked host)
    { sorted := fun x y record stored => absurd stored (by simp [chatEmpty, Messaging.empty])
      conversations := fun x y => Correspondence.mirrors_empty _
      messages := Correspondence.mirrors_empty
      accounts := rfl }
    (fun _ entry _ _ tracked logs => chatTracked_step sdk host entry logs tracked)
    calls records logs
  have exactly := fun x y => agrees_iff_of_conversationTracked (tracked.conversations x y)
  refine ⟨tracked.messages, tracked.accounts, exactly, ?_⟩
  constructor
  · intro refined x y
    exact (exactly x y).mp (refined.conversations (x, y))
  · intro reported
    exact ⟨fun accounts => (exactly accounts.1 accounts.2).mpr (reported accounts.1 accounts.2),
      tracked.messages, tracked.accounts⟩

end Run

/-! ### A message after an accepted request -/

/-- Two accounts open a conversation and the first one sends a message. -/
def messageRun : List (Call ⊕ Token.Call) :=
  let first := Address.repeated 1
  let second := Address.repeated 2
  let other := (Address.repeated 9).val
  let env := Env.signedBy first.val
  [.inl ⟨env 1, .setDependencies ⟨other, other, other⟩⟩,
    .inl ⟨env 2, .requestConversation ⟨first.val, second.val, [], 0⟩⟩,
    .inl ⟨env 3, .acceptConversation ⟨second.val, first.val, [], 1⟩⟩,
    .inl ⟨env 4, .sendMessage ⟨first.val, second.val, [], List.replicate 32 7, 1, [5]⟩⟩]

/-- The log of that run. -/
def messageLog : List LogEvent :=
  let contracts := chatMachine ⟨[], [], id⟩
  logOf (contracts.emitted chatEvents (contracts.history chatEmpty messageRun))

theorem chat_refined_iff_messageRun :
    ((chatMachine ⟨[], [], id⟩).history chatEmpty messageRun).length = 4 ∧
      messageLink.Mirrors (replayProjections Sdk.standard messageLog).directMessages
        ((chatMachine ⟨[], [], id⟩).final chatEmpty messageRun).1.messages ∧
      ¬ ChatRefined (replayProjections Sdk.standard messageLog)
        ((chatMachine ⟨[], [], id⟩).final chatEmpty messageRun) := by
  obtain ⟨messages, _, _, refined⟩ := chat_refined_iff Sdk.standard ⟨[], [], id⟩ messageRun
    messageLog (map_event_logOf _)
  refine ⟨by decide +kernel, messages, fun agree => ?_⟩
  have reported := refined.mp agree (Address.repeated 1) (Address.repeated 2)
  exact absurd reported (by decide +kernel)

/-- The row of the conversation keeps sequence zero when the record has one. -/
theorem sent_message_unreported :
    (chatMachine ⟨[], [], id⟩).Logs chatEvents LogEvent.event
        ((chatMachine ⟨[], [], id⟩).history chatEmpty messageRun) messageLog ∧
      ((replayProjections Sdk.standard messageLog).conversations.get
        (Address.repeated 1, Address.repeated 2)).map (fun row => row.value.sequence) = some 0 ∧
      (((chatMachine ⟨[], [], id⟩).final chatEmpty messageRun).1.conversations.get
        (pair (Address.repeated 1).val (Address.repeated 2).val)).map
          ConversationRecord.sequence = some 1 ∧
      ¬ ChatRefined (replayProjections Sdk.standard messageLog)
        ((chatMachine ⟨[], [], id⟩).final chatEmpty messageRun) := by
  have row : ((replayProjections Sdk.standard messageLog).conversations.get
      (Address.repeated 1, Address.repeated 2)).map (fun row => row.value.sequence) = some 0 := by
    decide +kernel
  have record : (((chatMachine ⟨[], [], id⟩).final chatEmpty messageRun).1.conversations.get
      (pair (Address.repeated 1).val (Address.repeated 2).val)).map
        ConversationRecord.sequence = some 1 := by
    decide +kernel
  refine ⟨map_event_logOf _, row, record, fun refined => ?_⟩
  have agree := refined.conversations (Address.repeated 1, Address.repeated 2)
  have shown := congrArg (Option.map fun view => view.1.sequence) agree
  rw [Option.map_map, Option.map_map] at shown
  have shown : some 0 = some 1 := row.symm.trans (shown.trans record)
  exact absurd shown (by decide)

end OpenSocial.Indexer

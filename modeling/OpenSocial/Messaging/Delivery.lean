/-
This file proves where a stored message comes from, and that two messages of a pair
keep the order in which they were stored.

A message is only stored by a send that its sender authorized in an accepted
conversation, under the key of its own sender and id. Its number is the number its
conversation has then, and the numbers of a conversation only grow.
-/

import OpenSocial.Messaging.Numbering

namespace OpenSocial.Messaging

open Library

variable {host : Host}

/-! ### The origin of a message -/

/-- An accepted call that sent this message. -/
structure Sends (host : Host) (env : Env) (state : State) (operation : Operation)
    (message : MessageRecord) (device envelope : Bytes) : Prop where
  operation : operation = .sendMessage ⟨message.sender.val, message.recipient.val, device,
    message.messageId, message.generation, envelope⟩
  authorized : ∃ dependencies, state.config = some dependencies ∧
    Authorized env dependencies message.sender device
  accepted : ∃ conversation, conversationOf state message.sender message.recipient =
    some conversation ∧ conversation.status = .accepted ∧
      conversation.generation = message.generation
  content : message.contentHash = contentHash host envelope
  timed : message.timestamp = env.now

/-- An entry of a history that sent this message. -/
def Originates (entry : (machine host).Accepted) (message : MessageRecord) : Prop :=
  ∃ device envelope, Sends host entry.call.env entry.before entry.call.operation message device
    envelope

/-- A message is stored under its own key, and its conversation has counted it. -/
structure Filed (state : State) (key : Bytes) (message : MessageRecord) : Prop where
  keyed : key = messageKey message.sender.val message.messageId
  identified : message.messageId.length = 32
  different : message.sender ≠ message.recipient
  counted : message.sequence ≤ sequenceOf state message.sender message.recipient

/-- The key of a message is that of the same sender and id only. -/
theorem messageKey_inj {first second : Address} {one other : Bytes} :
    messageKey first.val one = messageKey second.val other ↔ first = second ∧ one = other := by
  rw [messageKey, messageKey, Util.concat_address_inj]

/-- The sequence of a pair is that of the same pair in the other order, too. -/
theorem sequenceOf_of_pair (state : State) {x y first second : Address}
    (same : pair x.val y.val = pair first.val second.val) :
    sequenceOf state x y = sequenceOf state first second := by
  rw [sequenceOf, sequenceOf, conversationOf, conversationOf, same]

section Step

variable {env : Env} {operation : Operation} {state after : State} {output : Output}

/-- What is stored after a call was stored before, or the call stored it. -/
theorem message_cases (effect : Effect host env state operation after output) {key : Bytes}
    {message : MessageRecord} (stored : after.messages.get key = some message) :
    state.messages.get key = some message ∨
      Stores state after key message ∧ Filed after key message ∧
        ∃ device envelope, Sends host env state operation message device envelope := by
  rcases messages_step effect with ⟨same, _⟩ | ⟨fresh, new, stores⟩
  · rw [same] at stored
    exact .inl stored
  by_cases own : key = fresh
  · subst own
    have placed : after.messages.get key = some new := by
      rw [stores.stored, Store.get_put, if_pos rfl]
    obtain rfl : new = message := Option.some.inj (placed.symm.trans stored)
    have counted : sequenceOf after new.sender new.recipient = new.sequence :=
      (stores.counted _ _).trans (if_pos rfl)
    cases effect with
    | sent a b device messageId envelope dependencies found different configured authorized
        idLength free unblocked known opened room charged =>
      have added : (state.messages.put (messageKey a.val messageId) _).get key = some new := stored
      rw [Store.get_put] at added
      split at added
      · next same =>
        subst same
        obtain rfl := Option.some.inj added
        exact .inr ⟨stores, ⟨rfl, idLength, different, counted.ge⟩, device, envelope, rfl,
          ⟨dependencies, configured, authorized⟩, ⟨found, known, opened, rfl⟩, rfl, rfl⟩
      · exact absurd (stores.free.symm.trans added) (Option.some_ne_none _).symm
    | dependenciesSet => exact absurd (stores.free.symm.trans stored) (Option.some_ne_none _).symm
    | requested => exact absurd (stores.free.symm.trans stored) (Option.some_ne_none _).symm
    | accepted => exact absurd (stores.free.symm.trans stored) (Option.some_ne_none _).symm
    | closed => exact absurd (stores.free.symm.trans stored) (Option.some_ne_none _).symm
    | repeated => exact absurd (stores.free.symm.trans stored) (Option.some_ne_none _).symm
  · rw [stores.stored, Store.get_put, if_neg own] at stored
    exact .inl stored

/-- The sequence of a pair only grows. -/
theorem sequenceOf_mono (effect : Effect host env state operation after output) (x y : Address) :
    sequenceOf state x y ≤ sequenceOf after x y := by
  rcases messages_step effect with ⟨_, same⟩ | ⟨key, message, stores⟩
  · exact (same x y).ge
  · rw [stores.counted x y]
    split
    · next about =>
      rw [stores.next, sequenceOf_of_pair state about]
      exact Nat.le_succ _
    · exact le_refl _

theorem filed_step (effect : Effect host env state operation after output)
    (filed : ∀ key message, state.messages.get key = some message → Filed state key message)
    (key : Bytes) (message : MessageRecord) (stored : after.messages.get key = some message) :
    Filed after key message := by
  rcases message_cases effect stored with before | ⟨_, new, _⟩
  · have old := filed key message before
    exact { old with counted := old.counted.trans (sequenceOf_mono effect _ _) }
  · exact new

end Step

/-- Every stored message of a run is filed under its own key. -/
theorem filed_final (host : Host) (calls : List Call) :
    ∀ key message, ((machine host).final empty calls).messages.get key = some message →
      Filed ((machine host).final empty calls) key message := by
  refine (machine host).invariant_final empty
    (fun state => ∀ key message, state.messages.get key = some message → Filed state key message)
    (fun key message stored => ?_) (fun entry => filed_step (effect_of_entry entry)) calls
  exact absurd ((Store.get_empty key).symm.trans stored) (Option.some_ne_none _).symm

/-- Every stored message of a run was sent by an accepted call of the run. -/
theorem originates_final (host : Host) (calls : List Call) :
    ∀ key message, ((machine host).final empty calls).messages.get key = some message →
      ∃ entry ∈ (machine host).history empty calls, Originates entry message := by
  refine (machine host).run_induction empty
    (fun history state => ∀ key message, state.messages.get key = some message →
      ∃ entry ∈ history, Originates entry message)
    (fun key message stored => ?_) (fun history entry known key message stored => ?_) calls
  · exact absurd ((Store.get_empty key).symm.trans stored) (Option.some_ne_none _).symm
  · rcases message_cases (effect_of_entry entry) stored with before | ⟨_, _, sends⟩
    · obtain ⟨earlier, member, originates⟩ := known key message before
      exact ⟨earlier, List.mem_append_left _ member, originates⟩
    · exact ⟨entry, List.mem_append_right _ List.mem_cons_self, sends⟩

/-! ### The order of two messages -/

/-- The first message is stored, and has a lower number than the second one of the same pair, if
that is stored. -/
def Precedes (state : State) (first second : Bytes) : Prop :=
  ∃ message, state.messages.get first = some message ∧
    ∀ later, state.messages.get second = some later →
      pair message.sender.val message.recipient.val = pair later.sender.val later.recipient.val →
        message.sequence < later.sequence

/-- A message that is stored precedes whatever is not stored yet. -/
theorem precedes_of_free {state : State} {first second : Bytes} {message : MessageRecord}
    (stored : state.messages.get first = some message)
    (free : state.messages.get second = none) : Precedes state first second :=
  ⟨message, stored, fun later present => by
    rw [free] at present
    cases present⟩

theorem precedes_step {env : Env} {operation : Operation} {state after : State} {output : Output}
    (effect : Effect host env state operation after output)
    (filed : ∀ key message, state.messages.get key = some message → Filed state key message)
    {first second : Bytes} (precedes : Precedes state first second) :
    Precedes after first second := by
  obtain ⟨message, stored, lower⟩ := precedes
  refine ⟨message, message_kept effect stored, fun later present same => ?_⟩
  rcases message_cases effect present with before | ⟨stores, _, _⟩
  · exact lower later before same
  · have counted := (filed first message stored).counted
    rw [stores.next, ← sequenceOf_of_pair state same]
    exact Nat.lt_succ_of_le counted

/-- Messages keep their order however a run goes on. -/
theorem precedes_later {calls : List Call} {first second : Bytes}
    (precedes : Precedes ((machine host).final empty calls) first second) (more : List Call) :
    Precedes ((machine host).final empty (calls ++ more)) first second := by
  rw [Machine.final_append]
  refine ((machine host).invariant_final _
    (fun state => (∀ key message, state.messages.get key = some message →
      Filed state key message) ∧ Precedes state first second)
    ⟨filed_final host calls, precedes⟩ (fun entry holds => ?_) more).2
  exact ⟨filed_step (effect_of_entry entry) holds.1,
    precedes_step (effect_of_entry entry) holds.1 holds.2⟩

/-- A message stays as it is however a run goes on. -/
theorem message_later {calls : List Call} {key : Bytes} {message : MessageRecord}
    (stored : ((machine host).final empty calls).messages.get key = some message)
    (more : List Call) :
    ((machine host).final empty (calls ++ more)).messages.get key = some message := by
  rw [Machine.final_append]
  exact (machine host).invariant_final _ (fun state => state.messages.get key = some message)
    stored (fun entry => message_kept (effect_of_entry entry)) more

end OpenSocial.Messaging

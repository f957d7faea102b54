/-
This file proves that the messages between two parties are numbered one by one,
and that a message sent twice is stored once.

The two directions of a pair share the counter of their conversation, which a new
request takes over from the closed conversation it replaces. Every accepted call
either leaves the messages and the counters alone or stores one message under a
free key with the next number of its pair.
-/

import OpenSocial.Messaging.Consent

namespace OpenSocial.Messaging

open Library

/-! ### The messages of a pair -/

/-- The number of the last message of a pair; without a conversation it is zero. -/
def sequenceOf (state : State) (x y : Address) : ℕ :=
  (conversationOf state x y).elim 0 ConversationRecord.sequence

/-- A message went from one of the two accounts to the other. -/
def Exchanged (x y : Address) (message : MessageRecord) : Prop :=
  (message.sender = x ∧ message.recipient = y) ∨ (message.sender = y ∧ message.recipient = x)

/-- The stored messages of a pair carry exactly the numbers up to its sequence, each once. -/
structure Numbered (state : State) (x y : Address) : Prop where
  numbers : ∀ number,
    (∃ key message, state.messages.get key = some message ∧ Exchanged x y message ∧
      message.sequence = number) ↔ 1 ≤ number ∧ number ≤ sequenceOf state x y
  once : ∀ key other first second, state.messages.get key = some first →
    state.messages.get other = some second → Exchanged x y first → Exchanged x y second →
    first.sequence = second.sequence → key = other

/-- Two envelopes with the same content hash are the same. -/
def CollisionFree (host : Host) (first second : Bytes) : Prop :=
  contentHash host first = contentHash host second → first = second

theorem exchanged_iff {x y : Address} {message : MessageRecord} :
    Exchanged x y message ↔
      pair message.sender.val message.recipient.val = pair x.val y.val :=
  pair_inj.symm

/-! ### One call -/

/-- A message that is not stored yet gets the next number of its pair. -/
structure Stores (state after : State) (key : Bytes) (message : MessageRecord) : Prop where
  free : state.messages.get key = none
  stored : after.messages = state.messages.put key message
  next : message.sequence = sequenceOf state message.sender message.recipient + 1
  counted : ∀ x y, sequenceOf after x y =
    if pair message.sender.val message.recipient.val = pair x.val y.val then message.sequence
    else sequenceOf state x y

section Step

variable {host : Host} {env : Env} {operation : Operation} {state after : State} {output : Output}

/-- Writing a conversation with the sequence it had leaves the sequence of every pair. -/
theorem sequenceOf_putConversation {a b : Address} {record : ConversationRecord}
    (same : record.sequence = sequenceOf state a b) (x y : Address) :
    sequenceOf (state.putConversation a b record) x y = sequenceOf state x y := by
  rw [sequenceOf, conversationOf_putConversation]
  split
  · next about =>
    rw [Option.elim_some, same, sequenceOf, sequenceOf, conversationOf, conversationOf, about]
  · rfl

/-- A call stores one message or leaves the messages and the sequences alone. -/
theorem messages_step (effect : Effect host env state operation after output) :
    (after.messages = state.messages ∧ ∀ x y, sequenceOf after x y = sequenceOf state x y) ∨
      ∃ key message, Stores state after key message := by
  cases effect with
  | dependenciesSet => exact .inl ⟨rfl, fun _ _ => rfl⟩
  | requested a b => exact .inl ⟨rfl, sequenceOf_putConversation rfl⟩
  | accepted a b device dependencies found different configured authorized free known =>
    refine .inl ⟨rfl, sequenceOf_putConversation ?_⟩
    rw [sequenceOf, conversationOf, known, Option.elim_some]
  | closed a b device dependencies found different configured authorized known =>
    refine .inl ⟨rfl, sequenceOf_putConversation ?_⟩
    rw [sequenceOf, conversationOf, known, Option.elim_some]
  | repeated => exact .inl ⟨rfl, fun _ _ => rfl⟩
  | sent a b device messageId envelope dependencies found different configured authorized idLength
      fresh free known =>
    refine .inr ⟨_, _, fresh, rfl, ?_, fun x y => ?_⟩
    · show found.sequence + 1 = sequenceOf state a b + 1
      rw [sequenceOf, conversationOf, known, Option.elim_some]
    · rw [sequenceOf, conversationOf_putMessage, conversationOf_putConversation]
      by_cases about : pair x.val y.val = pair a.val b.val
      · rw [if_pos about, if_pos about.symm]
        rfl
      · rw [if_neg about, if_neg (Ne.symm about)]
        rfl

/-- A stored message is never changed. -/
theorem message_kept (effect : Effect host env state operation after output) {key : Bytes}
    {message : MessageRecord} (stored : state.messages.get key = some message) :
    after.messages.get key = some message := by
  rcases messages_step effect with ⟨same, _⟩ | ⟨other, new, stores⟩
  · rw [same, stored]
  · rw [stores.stored, Store.get_put, if_neg, stored]
    intro taken
    rw [taken, stores.free] at stored
    cases stored

/-- A call that leaves the messages and the sequence of a pair alone keeps its numbers. -/
theorem numbered_of_same {x y : Address} (numbered : Numbered state x y)
    (messages : after.messages = state.messages)
    (sequence : sequenceOf after x y = sequenceOf state x y) : Numbered after x y := by
  refine ⟨fun number => ?_, ?_⟩
  · rw [messages, sequence]
    exact numbered.numbers number
  · rw [messages]
    exact numbered.once

/-- A stored message keeps the numbers of every pair. -/
theorem numbered_of_stores {key : Bytes} {message : MessageRecord}
    (stores : Stores state after key message) {x y : Address} (numbered : Numbered state x y) :
    Numbered after x y := by
  have lookup : ∀ other found, after.messages.get other = some found →
      (other = key ∧ found = message) ∨ (other ≠ key ∧ state.messages.get other = some found) := by
    intro other found stored
    rw [stores.stored, Store.get_put] at stored
    split at stored
    · next same => exact .inl ⟨same, (Option.some.inj stored).symm⟩
    · next different => exact .inr ⟨different, stored⟩
  have kept : ∀ other found, state.messages.get other = some found →
      after.messages.get other = some found := by
    intro other found stored
    rw [stores.stored, Store.get_put, if_neg, stored]
    intro taken
    rw [taken, stores.free] at stored
    cases stored
  have placed : after.messages.get key = some message := by
    rw [stores.stored, Store.get_put, if_pos rfl]
  have bounded : ∀ other found, state.messages.get other = some found → Exchanged x y found →
      1 ≤ found.sequence ∧ found.sequence ≤ sequenceOf state x y :=
    fun other found stored about => (numbered.numbers found.sequence).mp ⟨other, found, stored, about, rfl⟩
  by_cases about : Exchanged x y message
  · -- The new message takes the number after the last one of its pair.
    have sequence : sequenceOf after x y = sequenceOf state x y + 1 := by
      rw [stores.counted x y, if_pos (exchanged_iff.mp about), stores.next, sequenceOf, sequenceOf,
        conversationOf, conversationOf, exchanged_iff.mp about]
    have last : message.sequence = sequenceOf state x y + 1 := by
      rw [← sequence, stores.counted x y, if_pos (exchanged_iff.mp about)]
    refine ⟨fun number => ⟨?_, fun bounds => ?_⟩, fun first second one two stored present => ?_⟩
    · rintro ⟨other, found, stored, exchanged, rfl⟩
      rw [sequence]
      rcases lookup other found stored with ⟨_, rfl⟩ | ⟨_, old⟩
      · omega
      · have := bounded other found old exchanged
        omega
    · by_cases new : number = message.sequence
      · exact ⟨key, message, placed, about, new.symm⟩
      · have earlier : 1 ≤ number ∧ number ≤ sequenceOf state x y := by omega
        obtain ⟨other, found, stored, exchanged, same⟩ := (numbered.numbers number).mpr earlier
        exact ⟨other, found, kept other found stored, exchanged, same⟩
    · intro exchanged alsoExchanged same
      rcases lookup first one stored with ⟨rfl, rfl⟩ | ⟨_, old⟩
      · rcases lookup second two present with ⟨rfl, _⟩ | ⟨_, old⟩
        · rfl
        · have := bounded second two old alsoExchanged
          omega
      · rcases lookup second two present with ⟨_, rfl⟩ | ⟨_, older⟩
        · have := bounded first one old exchanged
          omega
        · exact numbered.once first second one two old older exchanged alsoExchanged same
  · -- A message of another pair neither counts nor is counted here.
    have sequence : sequenceOf after x y = sequenceOf state x y := by
      rw [stores.counted x y, if_neg fun same => about (exchanged_iff.mpr same)]
    have others : ∀ other found, after.messages.get other = some found → Exchanged x y found →
        state.messages.get other = some found := by
      intro other found stored exchanged
      rcases lookup other found stored with ⟨_, rfl⟩ | ⟨_, old⟩
      · exact absurd exchanged about
      · exact old
    refine ⟨fun number => ?_, fun first second one two stored present exchanged alsoExchanged => ?_⟩
    · rw [sequence, ← numbered.numbers number]
      constructor
      · rintro ⟨other, found, stored, exchanged, same⟩
        exact ⟨other, found, others other found stored exchanged, exchanged, same⟩
      · rintro ⟨other, found, stored, exchanged, same⟩
        exact ⟨other, found, kept other found stored, exchanged, same⟩
    · exact numbered.once first second one two (others first one stored exchanged)
        (others second two present alsoExchanged) exchanged alsoExchanged

theorem numbered_step (effect : Effect host env state operation after output) {x y : Address}
    (numbered : Numbered state x y) : Numbered after x y := by
  rcases messages_step effect with ⟨messages, sequences⟩ | ⟨key, message, stores⟩
  · exact numbered_of_same numbered messages (sequences x y)
  · exact numbered_of_stores stores numbered

end Step

/-! ### Repeated sends -/

section Repeating

variable {host : Host} {state : State}

/-- What an accepted send leaves stored. -/
structure Sent (host : Host) (args : SendMessageArguments) (message : MessageRecord)
    (state : State) : Prop where
  stored : state.messages.get (messageKey args.sender args.messageId) = some message
  recipient : message.recipient.val = args.recipient
  generation : message.generation = args.generation
  content : message.contentHash = contentHash host args.envelope
  identified : args.messageId.length = 32
  enveloped : args.envelope ≠ [] ∧ args.envelope.length ≤ 4096
  different : args.sender ≠ args.recipient
  addressed : ∃ sender : Address, args.sender = sender.val

/-- An accepted send answers a message, which is stored afterwards. -/
theorem sent_of_accepted {env : Env} {args : SendMessageArguments} {after : State}
    {output : Output} (answer : execute host state ⟨env, .sendMessage args⟩ = .ok (after, output)) :
    ∃ message, output.message = some message ∧ Sent host args message after := by
  have effect := effect_of_accepted answer
  obtain ⟨sender, recipient, device, messageId, generation, envelope⟩ := args
  have enveloped : envelope ≠ [] ∧ envelope.length ≤ 4096 := by
    simp only [execute, sendMessage, bind_eq_ok, Util.requireBytes_eq_ok] at answer
    obtain ⟨_, _, _, _, _, _, _, _, _, _, _, ⟨rfl, enveloped⟩, _⟩ := answer
    exact enveloped
  cases effect with
  | repeated a b _ _ _ dependencies existing different configured authorized idLength stored
      sameRecipient sameContent =>
    refine ⟨existing, rfl, stored, congrArg Subtype.val sameRecipient, rfl, sameContent, idLength,
      enveloped, fun same => different (Subtype.ext same), a, rfl⟩
  | sent a b _ _ _ dependencies found different configured authorized idLength =>
    refine ⟨_, rfl, ?_, rfl, rfl, rfl, idLength, enveloped,
      fun same => different (Subtype.ext same), a, rfl⟩
    rw [State.putMessage, Store.get_put, if_pos rfl]

/-- An authorized repetition answers the stored message and does nothing else. -/
theorem sendMessage_of_repeated {env : Env} {args : SendMessageArguments} {message : MessageRecord}
    (sent : Sent host args message state) (device : Bytes)
    (authorized : ∃ (sender : Address) (dependencies : Dependencies), args.sender = sender.val ∧
      state.config = some dependencies ∧ Authorized env dependencies sender device) :
    sendMessage host env { args with device := device } state = .ok (state, ⟨[], some message⟩) := by
  obtain ⟨sender, dependencies, sender_eq, configured, signer, authorized⟩ := authorized
  have different : sender ≠ message.recipient := by
    intro same
    apply sent.different
    rw [sender_eq, ← sent.recipient, same]
  have authorizes : authorize env state sender message.recipient device = .ok () := by
    simp only [authorize, deps, bind_eq_ok, require_eq_ok, requireSome_eq_ok, pure_eq_ok,
      exists_const, bne_iff_ne]
    exact ⟨different, dependencies, configured, signer, authorized, trivial⟩
  have nonempty : args.messageId ≠ [] := by
    intro empty
    have length := sent.identified
    rw [empty] at length
    cases length
  simp only [sendMessage, bind_eq_ok, require_eq_ok, Util.requireAddress_eq_ok,
    Util.requireBytes_eq_ok, exists_const, beq_iff_eq]
  refine ⟨sender, sender_eq, message.recipient, sent.recipient.symm, (), authorizes,
    args.messageId, ⟨rfl, nonempty, sent.identified.le⟩, sent.identified, args.envelope,
    ⟨rfl, sent.enveloped⟩, ?_⟩
  rw [← sender_eq, sent.stored]
  simp only [bind_eq_ok, require_eq_ok, pure_eq_ok, exists_const, Bool.and_eq_true, beq_iff_eq,
    and_true]
  exact ⟨⟨trivial, sent.generation⟩, sent.content⟩

/-- A repetition with another recipient, generation or content is refused. -/
theorem sendMessage_of_differing {env : Env} {args again : SendMessageArguments}
    {message : MessageRecord} (sent : Sent host args message state)
    (sender : again.sender = args.sender) (messageId : again.messageId = args.messageId)
    {after : State} {output : Output}
    (answer : execute host state ⟨env, .sendMessage again⟩ = .ok (after, output)) :
    after = state ∧ again.recipient = args.recipient ∧ again.generation = args.generation ∧
      contentHash host again.envelope = contentHash host args.envelope := by
  have effect := effect_of_accepted answer
  obtain ⟨_, _, device, _, generation, envelope⟩ := again
  have stored := sent.stored
  cases effect with
  | repeated a b _ _ _ dependencies existing different configured authorized idLength present
      sameRecipient sameContent =>
    simp only at sender messageId
    rw [← sender, ← messageId] at stored
    have same := Option.some.inj (stored.symm.trans present)
    subst same
    refine ⟨rfl, ?_, sent.generation, ?_⟩
    · rw [← sent.recipient, sameRecipient]
    · rw [← sameContent, sent.content]
  | sent a b _ _ _ dependencies found different configured authorized idLength fresh =>
    simp only at sender messageId
    rw [← sender, ← messageId, fresh] at stored
    cases stored

end Repeating

theorem Sent.kept {host : Host} {args : SendMessageArguments} {message : MessageRecord}
    {entry : (machine host).Accepted} (sent : Sent host args message entry.before) :
    Sent host args message entry.after :=
  { sent with stored := message_kept (effect_of_entry entry) sent.stored }

theorem numbered_final (host : Host) (calls : List Call) (x y : Address) :
    Numbered ((machine host).final (machine host).initial calls) x y := by
  refine (machine host).invariant_final (machine host).initial (fun state => Numbered state x y)
    ⟨fun number => ⟨?_, fun bounds => ?_⟩, fun key other first second stored => ?_⟩
    (fun entry => numbered_step (effect_of_entry entry)) calls
  · rintro ⟨key, message, stored, _⟩
    exact absurd ((Store.get_empty key).symm.trans stored) (by simp)
  · have none : sequenceOf (machine host).initial x y = 0 := rfl
    rw [none] at bounds
    omega
  · exact absurd ((Store.get_empty key).symm.trans stored) (by simp)

/-- The messages of every pair are numbered from one to the sequence of its conversation, each
number once; a stored message is never changed; an authorized repetition of an accepted send answers
the stored message and does nothing else, whatever the token and relationships contracts answer;
and a repetition that differs changes nothing and is refused, unless two envelopes collide. -/
theorem messaging_numbering (host : Host) (calls : List Call) :
    (∀ x y, Numbered ((machine host).final (machine host).initial calls) x y) ∧
    (∀ earlier entry later,
      (machine host).history (machine host).initial calls = earlier ++ entry :: later →
      ∀ key message, entry.before.messages.get key = some message →
        entry.after.messages.get key = some message) ∧
    ∀ earlier first later,
      (machine host).history (machine host).initial calls = earlier ++ first :: later →
      ∀ args, first.call.operation = .sendMessage args →
        ∃ message, first.output.message = some message ∧
          (∀ env device consume isBlocked,
            (∃ (sender : Address) (dependencies : Dependencies), args.sender = sender.val ∧
              ((machine host).final (machine host).initial calls).config = some dependencies ∧
              Authorized env dependencies sender device) →
            (machine host).step ((machine host).final (machine host).initial calls)
              ⟨{ env with consume := consume, isBlocked := isBlocked },
                .sendMessage { args with device := device }⟩ =
              .ok ((machine host).final (machine host).initial calls, ⟨[], some message⟩)) ∧
          ∀ env again, again.sender = args.sender → again.messageId = args.messageId →
            (again.recipient, again.generation, again.envelope) ≠
              (args.recipient, args.generation, args.envelope) →
            (machine host).next ((machine host).final (machine host).initial calls)
                ⟨env, .sendMessage again⟩ =
              (machine host).final (machine host).initial calls ∧
            (CollisionFree host again.envelope args.envelope → ∃ failure,
              (machine host).step ((machine host).final (machine host).initial calls)
                ⟨env, .sendMessage again⟩ = .error failure) := by
  refine ⟨numbered_final host calls, fun earlier entry later split key message stored => ?_,
    fun earlier first later split args sending => ?_⟩
  · exact message_kept (effect_of_entry entry) stored
  · obtain ⟨before, ⟨firstEnv, operation⟩, after, output, accepted⟩ := first
    simp only at sending
    subst sending
    obtain ⟨message, answered, established⟩ := sent_of_accepted accepted
    have sent := (machine host).invariant_since split (Sent host args message) established
      fun other => Sent.kept
    refine ⟨message, answered, fun env device consume isBlocked authorized => ?_,
      fun env again sender messageId differs => ?_⟩
    · exact sendMessage_of_repeated sent device authorized
    · cases answer : (machine host).step ((machine host).final (machine host).initial calls)
        ⟨env, .sendMessage again⟩ with
      | error failure => exact ⟨(machine host).next_of_error answer, fun _ => ⟨failure, rfl⟩⟩
      | ok committed =>
        obtain ⟨reached, answered⟩ := committed
        obtain ⟨same, recipient, generation, content⟩ :=
          sendMessage_of_differing sent sender messageId answer
        refine ⟨((machine host).next_of_ok answer).trans same, fun collisionFree => ?_⟩
        rw [recipient, generation, collisionFree content] at differs
        exact absurd rfl differs

/-- A host whose digest is the text itself. -/
def plainHost : Host := ⟨List.replicate 25 9, [], fun data => 0 :: 0 :: data⟩

/-- The message the run below sends. -/
def greeting : SendMessageArguments :=
  ⟨(Address.repeated 1).val, (Address.repeated 2).val, [], List.replicate 32 5, 1, [1, 2, 3]⟩

/-- A run that opens a conversation. -/
def openedRun : List Call :=
  let first := (Address.repeated 1).val
  let second := (Address.repeated 2).val
  let env := Env.signedBy []
  [⟨env 0, .setDependencies
      ⟨(Address.repeated 11).val, (Address.repeated 12).val, (Address.repeated 13).val⟩⟩,
    ⟨env 1, .requestConversation ⟨first, second, [], 0⟩⟩,
    ⟨env 2, .acceptConversation ⟨second, first, [], 1⟩⟩]

/-- The run that opens a conversation, sends a message and closes the conversation. -/
def closedRun : List Call :=
  openedRun ++ ⟨Env.signedBy [] 3, .sendMessage greeting⟩ ::
    [⟨Env.signedBy [] 4, .closeConversation
      ⟨(Address.repeated 2).val, (Address.repeated 1).val, [], 1⟩⟩]

theorem messaging_numbering_closedRun :
    (∃ message, (machine plainHost).step
        ((machine plainHost).final (machine plainHost).initial closedRun)
        ⟨{ Env.signedBy [] 5 with consume := fun _ _ _ => false, isBlocked := fun _ _ _ => some true },
          .sendMessage greeting⟩ =
        .ok ((machine plainHost).final (machine plainHost).initial closedRun, ⟨[], some message⟩)) ∧
      ∃ failure, (machine plainHost).step
        ((machine plainHost).final (machine plainHost).initial closedRun)
        ⟨Env.signedBy [] 5, .sendMessage { greeting with envelope := [4] }⟩ = .error failure := by
  have executes : ((machine plainHost).step
      ((machine plainHost).final (machine plainHost).initial openedRun)
      ⟨Env.signedBy [] 3, .sendMessage greeting⟩).toBool = true := by decide +kernel
  obtain ⟨⟨after, output⟩, answer⟩ := exists_ok_of_toBool executes
  have split := (machine plainHost).history_append (machine plainHost).initial openedRun
    (⟨Env.signedBy [] 3, .sendMessage greeting⟩ ::
      [⟨Env.signedBy [] 4, .closeConversation
        ⟨(Address.repeated 2).val, (Address.repeated 1).val, [], 1⟩⟩])
  rw [(machine plainHost).history_cons_of_ok answer] at split
  obtain ⟨_, _, repeats⟩ := messaging_numbering plainHost closedRun
  obtain ⟨message, _, again, differing⟩ := repeats _ _ _ split greeting rfl
  refine ⟨⟨message, ?_⟩, ?_⟩
  · refine again (Env.signedBy [] 5) [] _ _ ⟨Address.repeated 1,
      ⟨Address.repeated 11, Address.repeated 12, Address.repeated 13⟩, rfl, by decide +kernel,
      (Address.repeated 1).val, by decide +kernel⟩
  · refine (differing (Env.signedBy [] 5) { greeting with envelope := [4] } rfl rfl
      (by decide +kernel)).2 fun same => ?_
    exact absurd same (by decide +kernel)

end OpenSocial.Messaging

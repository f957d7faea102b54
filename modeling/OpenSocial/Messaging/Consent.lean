/-
This file proves that a conversation is open only by consent: one party requested
its generation, the other accepted that generation while neither blocked the
other, and nobody closed it since.

A request starts the next generation and nothing else moves it, so the generation
a call names tells whether the call is late. Every stored conversation is explained
by the calls that made it what it is: the last of them changed its status, and the
acceptance of an open one comes after the request it accepts.
-/

import OpenSocial.Library.Lasting
import OpenSocial.Messaging.Effects

namespace OpenSocial.Messaging

open Library

/-! ### Conversations and their generations -/

/-- The conversation of a pair. -/
def conversationOf (state : State) (x y : Address) : Option ConversationRecord :=
  state.conversations.get (pair x.val y.val)

/-- The generation of a pair; without a conversation it is zero. -/
def generationOf (state : State) (x y : Address) : ℕ :=
  (conversationOf state x y).elim 0 ConversationRecord.generation

/-- Whether a call requests the conversation with a key. -/
def requestsConversation (key : Bytes) : Operation → Bool
  | .requestConversation args => pair args.actor args.peer == key
  | _ => false

/-- The generation a call names of the conversation with a key. -/
def generationNamed (key : Bytes) : Operation → Option ℕ
  | .requestConversation args =>
    if pair args.actor args.peer = key then some args.generation else none
  | .acceptConversation args =>
    if pair args.actor args.peer = key then some args.generation else none
  | .closeConversation args =>
    if pair args.actor args.peer = key then some args.generation else none
  | .sendMessage args =>
    if pair args.sender args.recipient = key then some args.generation else none
  | .setDependencies _ => none

theorem conversationOf_comm (state : State) (x y : Address) :
    conversationOf state x y = conversationOf state y x := by
  rw [conversationOf, conversationOf, pair_comm]

theorem conversationOf_putConversation (state : State) (a b x y : Address)
    (record : ConversationRecord) :
    conversationOf (state.putConversation a b record) x y =
      if pair x.val y.val = pair a.val b.val then some record else conversationOf state x y := by
  rw [conversationOf, State.putConversation, Store.get_put, conversationOf]

theorem conversationOf_putMessage (state : State) (sender x y : Address) (messageId : Bytes)
    (record : MessageRecord) :
    conversationOf (state.putMessage sender messageId record) x y = conversationOf state x y :=
  rfl

/-! ### Consent in a history -/

variable {host : Host}

/-- A party that signed a call, with its owner key or a messaging device, and another party, while
neither blocks the other. -/
structure Consents (env : Env) (state : State) (party other : Address) (device : Bytes) : Prop where
  authorized : ∃ dependencies, state.config = some dependencies ∧
    Authorized env dependencies party device
  free : ∃ dependencies, state.config = some dependencies ∧
    Unblocked env dependencies party other

/-- A party requests a generation of its conversation with another. -/
def Requests (requester invitee : Address) (generation : ℕ) (entry : (machine host).Accepted) :
    Prop :=
  ∃ device earlier, generation = earlier + 1 ∧
    entry.call.operation = .requestConversation ⟨requester.val, invitee.val, device, earlier⟩ ∧
    Consents entry.call.env entry.before requester invitee device

/-- The invited party accepts a generation. -/
def Accepts (requester invitee : Address) (generation : ℕ) (entry : (machine host).Accepted) :
    Prop :=
  ∃ device,
    entry.call.operation = .acceptConversation ⟨invitee.val, requester.val, device, generation⟩ ∧
    Consents entry.call.env entry.before invitee requester device

/-- A call neither requests, accepts nor closes the conversation of two parties. -/
def LeavesConversation (requester invitee : Address) (entry : (machine host).Accepted) : Prop :=
  changesConversation (pair requester.val invitee.val) entry.call.operation = false

/-- A party requested the generation, and the conversation was left alone since. -/
def RequestedSince (requester invitee : Address) (generation : ℕ)
    (history : List (machine host).Accepted) : Prop :=
  LastsSince (fun _ => Requests requester invitee generation)
    (LeavesConversation requester invitee) history

/-- One party requested the generation, the other accepted it next, and the conversation was left
alone since. -/
def AcceptedSince (requester invitee : Address) (generation : ℕ)
    (history : List (machine host).Accepted) : Prop :=
  LastsSince
    (fun older entry => RequestedSince requester invitee generation older ∧
      Accepts requester invitee generation entry)
    (LeavesConversation requester invitee) history

/-- A stored conversation is explained by the calls of its parties. -/
structure ConsentInvariant (history : List (machine host).Accepted) (state : State)
    (x y : Address) : Prop where
  party : ∀ found, conversationOf state x y = some found →
    found.requester = x ∨ found.requester = y
  requested : ∀ found, conversationOf state x y = some found → found.requester = x →
    found.status = .requested → RequestedSince x y found.generation history
  accepted : ∀ found, conversationOf state x y = some found → found.requester = x →
    found.status = .accepted → AcceptedSince x y found.generation history

/-- What consent depends on in a conversation. -/
def consentOf (record : ConversationRecord) : Address × ConversationStatus × ℕ :=
  (record.requester, record.status, record.generation)

/-- A call that leaves a conversation alone, but for its sequence, keeps the invariant. -/
theorem consentInvariant_of_quiet {history : List (machine host).Accepted}
    {entry : (machine host).Accepted} {x y : Address}
    (invariant : ConsentInvariant history entry.before x y)
    (quiet : LeavesConversation x y entry)
    (kept : (conversationOf entry.after x y).map consentOf =
      (conversationOf entry.before x y).map consentOf) :
    ConsentInvariant (history ++ [entry]) entry.after x y := by
  have earlier : ∀ found, conversationOf entry.after x y = some found →
      ∃ old, conversationOf entry.before x y = some old ∧ old.requester = found.requester ∧
        old.status = found.status ∧ old.generation = found.generation := by
    intro found stored
    rw [stored, Option.map_some] at kept
    obtain ⟨old, known, same⟩ := Option.map_eq_some_iff.mp kept.symm
    simp only [consentOf, Prod.mk.injEq] at same
    exact ⟨old, known, same⟩
  refine ⟨fun found stored => ?_, fun found stored first status => ?_,
    fun found stored first status => ?_⟩
  · obtain ⟨old, known, requester, _, _⟩ := earlier found stored
    rw [← requester]
    exact invariant.party old known
  · obtain ⟨old, known, requester, oldStatus, generation⟩ := earlier found stored
    rw [← generation]
    exact (invariant.requested old known (requester.trans first)
      (oldStatus.trans status)).continues quiet
  · obtain ⟨old, known, requester, oldStatus, generation⟩ := earlier found stored
    rw [← generation]
    exact (invariant.accepted old known (requester.trans first)
      (oldStatus.trans status)).continues quiet

/-- A call that writes the conversation of a pair keeps the invariant of the pair, both ways, when
its record is explained. -/
theorem consentInvariant_of_written {history : List (machine host).Accepted}
    {entry : (machine host).Accepted} {a b x y : Address} {record : ConversationRecord}
    (same : pair x.val y.val = pair a.val b.val)
    (after_eq : entry.after = entry.before.putConversation a b record)
    (party : record.requester = a ∨ record.requester = b)
    (requested : record.status = .requested →
      ∀ other, pair record.requester.val other.val = pair a.val b.val →
        RequestedSince record.requester other record.generation (history ++ [entry]))
    (accepted : record.status = .accepted →
      ∀ other, pair record.requester.val other.val = pair a.val b.val →
        AcceptedSince record.requester other record.generation (history ++ [entry])) :
    ConsentInvariant (history ++ [entry]) entry.after x y := by
  have found_eq : ∀ found, conversationOf entry.after x y = some found → found = record := by
    intro found stored
    rw [after_eq, conversationOf_putConversation, if_pos same] at stored
    exact (Option.some.inj stored).symm
  refine ⟨fun found stored => ?_, fun found stored first status => ?_,
    fun found stored first status => ?_⟩
  · rw [found_eq found stored]
    rcases pair_inj.mp same with ⟨rfl, rfl⟩ | ⟨rfl, rfl⟩
    · exact party
    · exact party.symm
  · rw [found_eq found stored] at first status ⊢
    have lasting := requested status y
    rw [first] at lasting
    exact lasting same
  · rw [found_eq found stored] at first status ⊢
    have lasting := accepted status y
    rw [first] at lasting
    exact lasting same

theorem eq_of_pair_eq {a other b : Address} (same : pair a.val other.val = pair a.val b.val) :
    other = b := by
  rcases pair_inj.mp same with ⟨_, second⟩ | ⟨first, second⟩
  · exact second
  · exact second.trans first

/-- Every accepted call keeps the consent invariant of every pair. -/
theorem consentInvariant_step {history : List (machine host).Accepted}
    (entry : (machine host).Accepted)
    (invariant : ∀ x y, ConsentInvariant history entry.before x y) (x y : Address) :
    ConsentInvariant (history ++ [entry]) entry.after x y := by
  have effect := effect_of_entry entry
  have quiet := consentInvariant_of_quiet (invariant x y)
  generalize operation_eq : entry.call.operation = operation at effect
  generalize after_eq : entry.after = after at effect quiet ⊢
  generalize output_eq : entry.output = output at effect
  cases effect with
  | dependenciesSet identity relationships token =>
    refine quiet ?_ rfl
    rw [LeavesConversation, operation_eq]
    rfl
  | requested a b device dependencies different configured authorized free registered reopened =>
    by_cases same : pair x.val y.val = pair a.val b.val
    · rw [← after_eq]
      refine consentInvariant_of_written same after_eq (.inl rfl) (fun _ other about => ?_)
        fun status => absurd status (by simp [requestedRecord])
      rw [eq_of_pair_eq about]
      exact LastsSince.begins ⟨device, _, rfl, operation_eq, ⟨dependencies, configured, authorized⟩,
        dependencies, configured, free⟩
    · refine quiet ?_ (by rw [conversationOf_putConversation, if_neg same])
      rw [LeavesConversation, operation_eq]
      exact beq_eq_false_iff_ne.mpr (Ne.symm same)
  | accepted a b device dependencies found different configured authorized free known invited
      invitee =>
    by_cases same : pair x.val y.val = pair a.val b.val
    · have since : RequestedSince b a found.generation history := by
        refine (invariant b a).requested found ?_ invitee invited
        rw [conversationOf, pair_comm, known]
      rw [← after_eq]
      refine consentInvariant_of_written same after_eq (.inr invitee)
        (fun status => absurd status (by simp)) fun _ other about => ?_
      simp only [invitee] at about ⊢
      rw [pair_comm a b] at about
      rw [eq_of_pair_eq about]
      exact LastsSince.begins ⟨since, device, operation_eq, ⟨dependencies, configured, authorized⟩,
        dependencies, configured, free⟩
    · refine quiet ?_ (by rw [conversationOf_putConversation, if_neg same])
      rw [LeavesConversation, operation_eq]
      exact beq_eq_false_iff_ne.mpr (Ne.symm same)
  | closed a b device dependencies found different configured authorized known =>
    by_cases same : pair x.val y.val = pair a.val b.val
    · rw [← after_eq]
      exact consentInvariant_of_written same after_eq ((invariant a b).party found known)
        (fun status => absurd status (by simp)) fun status => absurd status (by simp)
    · refine quiet ?_ (by rw [conversationOf_putConversation, if_neg same])
      rw [LeavesConversation, operation_eq]
      exact beq_eq_false_iff_ne.mpr (Ne.symm same)
  | repeated a b device messageId envelope dependencies existing =>
    refine quiet ?_ rfl
    rw [LeavesConversation, operation_eq]
    rfl
  | sent a b device messageId envelope dependencies found different configured authorized idLength
      fresh free known opened =>
    refine quiet ?_ ?_
    · rw [LeavesConversation, operation_eq]
      rfl
    · rw [conversationOf_putMessage, conversationOf_putConversation]
      split
      · next same =>
        rw [conversationOf, same, known]
        rfl
      · rfl

theorem consentInvariant_run (calls : List Call) (x y : Address) :
    ConsentInvariant ((machine host).history (machine host).initial calls)
      ((machine host).final (machine host).initial calls) x y := by
  refine (machine host).run_induction (machine host).initial
    (fun history state => ∀ x y, ConsentInvariant history state x y) (fun x y => ?_)
    (fun history entry invariant => consentInvariant_step entry invariant) calls x y
  have absent : conversationOf (machine host).initial x y = none := Store.get_empty _
  refine ⟨fun found stored => ?_, fun found stored => ?_, fun found stored => ?_⟩
  · exact absurd (absent.symm.trans stored) (by simp)
  · exact absurd (absent.symm.trans stored) (by simp)
  · exact absurd (absent.symm.trans stored) (by simp)

/-! ### Generations -/

section Step

variable {env : Env} {operation : Operation} {state after : State} {output : Output}

/-- A request starts the next generation, and no other call moves it. -/
theorem generationOf_step (effect : Effect host env state operation after output) (x y : Address) :
    generationOf after x y = generationOf state x y +
      if requestsConversation (pair x.val y.val) operation then 1 else 0 := by
  cases effect with
  | dependenciesSet => rfl
  | requested a b =>
    rw [generationOf, conversationOf_putConversation, requestsConversation]
    by_cases same : pair x.val y.val = pair a.val b.val
    · rw [if_pos same, same, if_pos (beq_self_eq_true _), generationOf, conversationOf, same]
      rfl
    · rw [if_neg same, if_neg (by simpa using Ne.symm same)]
      rfl
  | accepted a b device dependencies found different configured authorized free known =>
    rw [generationOf, conversationOf_putConversation]
    by_cases same : pair x.val y.val = pair a.val b.val
    · rw [if_pos same, generationOf, conversationOf, same, known]
      rfl
    · rw [if_neg same]
      rfl
  | closed a b device dependencies found different configured authorized known =>
    rw [generationOf, conversationOf_putConversation]
    by_cases same : pair x.val y.val = pair a.val b.val
    · rw [if_pos same, generationOf, conversationOf, same, known]
      rfl
    · rw [if_neg same]
      rfl
  | repeated => rfl
  | sent a b device messageId envelope dependencies found different configured authorized idLength
      fresh free known =>
    rw [generationOf, conversationOf_putMessage, conversationOf_putConversation]
    by_cases same : pair x.val y.val = pair a.val b.val
    · rw [if_pos same, generationOf, conversationOf, same, known]
      rfl
    · rw [if_neg same]
      rfl

/-- An accepted call that changes the state names the generation of its conversation. -/
theorem unchanged_of_stale (effect : Effect host env state operation after output) {x y : Address}
    {generation : ℕ} (named : generationNamed (pair x.val y.val) operation = some generation)
    (stale : generation < generationOf state x y) : after = state := by
  cases effect with
  | dependenciesSet => cases named
  | requested a b =>
    rw [generationNamed] at named
    split at named
    · next same =>
      rw [generationOf, conversationOf, ← same, ← Option.some.inj named] at stale
      exact absurd stale (lt_irrefl _)
    · cases named
  | accepted a b device dependencies found different configured authorized free known =>
    rw [generationNamed] at named
    split at named
    · next same =>
      rw [generationOf, conversationOf, ← same, known, ← Option.some.inj named] at stale
      exact absurd stale (lt_irrefl _)
    · cases named
  | closed a b device dependencies found different configured authorized known =>
    rw [generationNamed] at named
    split at named
    · next same =>
      rw [generationOf, conversationOf, ← same, known, ← Option.some.inj named] at stale
      exact absurd stale (lt_irrefl _)
    · cases named
  | repeated => rfl
  | sent a b device messageId envelope dependencies found different configured authorized idLength
      fresh free known =>
    rw [generationNamed] at named
    split at named
    · next same =>
      rw [generationOf, conversationOf, ← same, known, ← Option.some.inj named] at stale
      exact absurd stale (lt_irrefl _)
    · cases named

/-- A message is stored only by its sender, in an open conversation of its generation, while neither
party blocks the other. -/
theorem opened_of_stored (effect : Effect host env state operation after output) {key : Bytes}
    {message : MessageRecord} (stored : after.messages.get key = some message)
    (new : state.messages.get key ≠ some message) :
    ∃ device envelope found,
      operation = .sendMessage ⟨message.sender.val, message.recipient.val, device,
        message.messageId, message.generation, envelope⟩ ∧
      Consents env state message.sender message.recipient device ∧
      conversationOf state message.sender message.recipient = some found ∧
      found.status = .accepted ∧ found.generation = message.generation := by
  cases effect with
  | sent a b device messageId envelope dependencies found different configured authorized idLength
      fresh free known opened =>
    rw [State.putMessage, Store.get_put] at stored
    split at stored
    · rw [← Option.some.inj stored]
      exact ⟨device, envelope, found, rfl,
        ⟨⟨dependencies, configured, authorized⟩, dependencies, configured, free⟩, known, opened, rfl⟩
    · exact absurd stored new
  | _ => exact absurd stored new

end Step

/-- The generation of a pair grows by one with each accepted request and by nothing else; an open
conversation was requested by one party and accepted by the other, both signed and unblocked, and
left alone since; a message is stored only by its sender in an open, unblocked conversation of its
generation; and a call that names an older generation changes nothing. -/
theorem messaging_consent (calls : List Call) :
    (∀ earlier entry later,
      (machine host).history (machine host).initial calls = earlier ++ entry :: later →
      ∀ x y, generationOf entry.after x y = generationOf entry.before x y +
        if requestsConversation (pair x.val y.val) entry.call.operation then 1 else 0) ∧
    (∀ x y found,
      conversationOf ((machine host).final (machine host).initial calls) x y = some found →
      found.status = .accepted →
      (found.requester = x ∧ AcceptedSince x y found.generation
        ((machine host).history (machine host).initial calls)) ∨
      (found.requester = y ∧ AcceptedSince y x found.generation
        ((machine host).history (machine host).initial calls))) ∧
    (∀ earlier entry later,
      (machine host).history (machine host).initial calls = earlier ++ entry :: later →
      ∀ key message, entry.after.messages.get key = some message →
        entry.before.messages.get key ≠ some message →
        ∃ device envelope found,
          entry.call.operation = .sendMessage ⟨message.sender.val, message.recipient.val, device,
            message.messageId, message.generation, envelope⟩ ∧
          Consents entry.call.env entry.before message.sender message.recipient device ∧
          conversationOf entry.before message.sender message.recipient = some found ∧
          found.status = .accepted ∧ found.generation = message.generation) ∧
    ∀ call x y generation, generationNamed (pair x.val y.val) call.operation = some generation →
      generation < generationOf ((machine host).final (machine host).initial calls) x y →
      (machine host).next ((machine host).final (machine host).initial calls) call =
        (machine host).final (machine host).initial calls := by
  refine ⟨fun earlier entry later split x y => generationOf_step (effect_of_entry entry) x y,
    fun x y found stored opened => ?_, fun earlier entry later split key message stored new => ?_,
    fun call x y generation named stale => ?_⟩
  · rcases (consentInvariant_run calls x y).party found stored with first | second
    · exact .inl ⟨first, (consentInvariant_run calls x y).accepted found stored first opened⟩
    · rw [conversationOf_comm] at stored
      exact .inr ⟨second, (consentInvariant_run calls y x).accepted found stored second opened⟩
  · exact opened_of_stored (effect_of_entry entry) stored new
  · cases answer : (machine host).step ((machine host).final (machine host).initial calls) call with
    | error failure => exact (machine host).next_of_error answer
    | ok committed =>
      obtain ⟨after, output⟩ := committed
      rw [(machine host).next_of_ok answer]
      exact unchanged_of_stale (effect_of_accepted answer) named stale

end OpenSocial.Messaging

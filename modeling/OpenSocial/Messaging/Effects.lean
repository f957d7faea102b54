/-
This file states once what an accepted messaging call can do, one case for each
way a method can succeed.
-/

import OpenSocial.Messaging.Contract

namespace OpenSocial.Messaging

open Library

/-! ### Which conversation a call is about -/

theorem pair_eq_sortedPair (x y : Address) :
    pair x.val y.val =
      Util.concat [(sortedPair (fun x y : Address => Util.compare x.val y.val < 0) x y).1.val,
        (sortedPair (fun x y : Address => Util.compare x.val y.val < 0) x y).2.val] := by
  unfold pair sortedPair
  by_cases before : Util.compare x.val y.val < 0
  · rw [if_pos before, if_pos (by simpa using before)]
  · rw [if_neg before, if_neg (by simpa using before)]

/-- The key of a pair is that of the same pair only. -/
theorem pair_inj {x y first second : Address} :
    pair x.val y.val = pair first.val second.val ↔
      (x = first ∧ y = second) ∨ (x = second ∧ y = first) := by
  rw [pair_eq_sortedPair, pair_eq_sortedPair, Util.concat_addresses_inj]
  exact SortedPair.eq_iff Util.decides_compare_lt x y first second

theorem pair_comm (x y : Address) : pair x.val y.val = pair y.val x.val :=
  pair_inj.mpr (.inr ⟨rfl, rfl⟩)

/-- The call requests, accepts or closes the conversation with a key. -/
def changesConversation (key : Bytes) : Operation → Bool
  | .requestConversation args => pair args.actor args.peer == key
  | .acceptConversation args => pair args.actor args.peer == key
  | .closeConversation args => pair args.actor args.peer == key
  | _ => false

/-- The call, made in a state, sends a message that is not stored yet in the conversation with a
key. -/
def sendsMessage (key : Bytes) (state : State) : Operation → Bool
  | .sendMessage args =>
    pair args.sender args.recipient == key &&
      !state.messages.has (messageKey args.sender args.messageId)
  | _ => false

/-! ### Pure effects -/

/-- The conversation a request stores. -/
def requestedRecord (a b : Address) (old : Option ConversationRecord) (now : ℕ) :
    ConversationRecord where
  a := if Util.compare a.val b.val < 0 then a else b
  b := if Util.compare a.val b.val < 0 then b else a
  requester := a
  status := .requested
  generation := old.elim 0 ConversationRecord.generation + 1
  sequence := old.elim 0 ConversationRecord.sequence
  updatedAt := now

/-- The content hash of an envelope: its multihash without the prefix. -/
def contentHash (host : Host) (envelope : Bytes) : Bytes :=
  (host.hash envelope).drop 2

/-- The conversation after one more message. -/
def advanced (conversation : ConversationRecord) (now : ℕ) : ConversationRecord :=
  { conversation with sequence := conversation.sequence + 1, updatedAt := now }

/-- Nobody of the two has blocked the other, as far as the relationships contract answers. -/
def Unblocked (env : Env) (dependencies : Dependencies) (a b : Address) : Prop :=
  env.isBlocked dependencies.relationships.val a.val b.val = some false ∧
    env.isBlocked dependencies.relationships.val b.val a.val = some false

/-- The actor signed, with its owner key or a messaging device. -/
def Authorized (env : Env) (dependencies : Dependencies) (a : Address) (device : Bytes) : Prop :=
  ∃ signer, Actor.requireAuthorized env dependencies.identity.val a.val device
    Capability.MESSAGING = .ok signer

/-! ### Effects -/

/-- What an accepted call of each method does. -/
inductive Effect (host : Host) (env : Env) (state : State) : Operation → State → Output → Prop where
  | dependenciesSet (identity relationships token : Address)
      (authorized : env.authority host.contractId = true) :
      Effect host env state (.setDependencies ⟨identity.val, relationships.val, token.val⟩)
        { state with config := some ⟨identity, relationships, token⟩ } ⟨[], none⟩
  | requested (a b : Address) (device : Bytes) (dependencies : Dependencies) (different : a ≠ b)
      (configured : state.config = some dependencies)
      (authorized : Authorized env dependencies a device)
      (free : Unblocked env dependencies a b)
      (registered : Actor.existsIdentity env dependencies.identity.val b.val = .ok true)
      (reopened : ∀ old, state.conversations.get (pair a.val b.val) = some old →
        old.status = .closed)
      (room : (state.conversations.get (pair a.val b.val)).elim 0 ConversationRecord.generation <
        2 ^ 64 - 1)
      (charged : env.consume dependencies.token.val a.val 1 = true) :
      Effect host env state
        (.requestConversation ⟨a.val, b.val, device,
          (state.conversations.get (pair a.val b.val)).elim 0 ConversationRecord.generation⟩)
        (state.putConversation a b
          (requestedRecord a b (state.conversations.get (pair a.val b.val)) env.now))
        ⟨[.conversationChanged
          (requestedRecord a b (state.conversations.get (pair a.val b.val)) env.now) env.now],
          none⟩
  | accepted (a b : Address) (device : Bytes) (dependencies : Dependencies)
      (found : ConversationRecord) (different : a ≠ b)
      (configured : state.config = some dependencies)
      (authorized : Authorized env dependencies a device) (free : Unblocked env dependencies a b)
      (known : state.conversations.get (pair a.val b.val) = some found)
      (invited : found.status = .requested) (invitee : found.requester = b) :
      Effect host env state (.acceptConversation ⟨a.val, b.val, device, found.generation⟩)
        (state.putConversation a b { found with status := .accepted, updatedAt := env.now })
        ⟨[.conversationChanged { found with status := .accepted, updatedAt := env.now } env.now],
          none⟩
  | closed (a b : Address) (device : Bytes) (dependencies : Dependencies)
      (found : ConversationRecord) (different : a ≠ b)
      (configured : state.config = some dependencies)
      (authorized : Authorized env dependencies a device)
      (known : state.conversations.get (pair a.val b.val) = some found) :
      Effect host env state (.closeConversation ⟨a.val, b.val, device, found.generation⟩)
        (state.putConversation a b { found with status := .closed, updatedAt := env.now })
        ⟨[.conversationChanged { found with status := .closed, updatedAt := env.now } env.now],
          none⟩
  | repeated (a b : Address) (device messageId envelope : Bytes) (dependencies : Dependencies)
      (existing : MessageRecord) (different : a ≠ b)
      (configured : state.config = some dependencies)
      (authorized : Authorized env dependencies a device) (idLength : messageId.length = 32)
      (stored : state.messages.get (messageKey a.val messageId) = some existing)
      (sameRecipient : existing.recipient = b)
      (sameContent : existing.contentHash = contentHash host envelope) :
      Effect host env state
        (.sendMessage ⟨a.val, b.val, device, messageId, existing.generation, envelope⟩) state
        ⟨[], some existing⟩
  | sent (a b : Address) (device messageId envelope : Bytes) (dependencies : Dependencies)
      (found : ConversationRecord) (different : a ≠ b)
      (configured : state.config = some dependencies)
      (authorized : Authorized env dependencies a device) (idLength : messageId.length = 32)
      (fresh : state.messages.get (messageKey a.val messageId) = none)
      (free : Unblocked env dependencies a b)
      (known : state.conversations.get (pair a.val b.val) = some found)
      (opened : found.status = .accepted) (room : found.sequence < 2 ^ 64 - 1)
      (charged : env.consume dependencies.token.val a.val 1 = true) :
      Effect host env state
        (.sendMessage ⟨a.val, b.val, device, messageId, found.generation, envelope⟩)
        ((state.putConversation a b (advanced found env.now)).putMessage a messageId
          ⟨a, b, messageId, contentHash host envelope, found.generation, found.sequence + 1,
            env.now⟩)
        ⟨[.messageSent ⟨a, b, messageId, contentHash host envelope, found.generation,
            found.sequence + 1, env.now⟩ envelope env.now],
          some ⟨a, b, messageId, contentHash host envelope, found.generation, found.sequence + 1,
            env.now⟩⟩

/-! ### Inverting the methods -/

section Inversion

variable {env : Env} {state : State} {a b : Address}

theorem authorize_eq_ok {device : Bytes} {result : Unit}
    (answer : authorize env state a b device = .ok result) :
    a ≠ b ∧ ∃ dependencies, state.config = some dependencies ∧
      Authorized env dependencies a device := by
  simp only [authorize, deps, bind_eq_ok, require_eq_ok, requireSome_eq_ok, pure_eq_ok,
    exists_const, bne_iff_ne] at answer
  obtain ⟨different, dependencies, configured, signer, authorized, _⟩ := answer
  exact ⟨different, dependencies, configured, signer, authorized⟩

theorem unblocked_eq_ok {dependencies : Dependencies} {result : Unit}
    (configured : state.config = some dependencies)
    (answer : unblocked env state a b = .ok result) : Unblocked env dependencies a b := by
  simp only [unblocked, requireUnblocked, deps, bind_eq_ok, require_eq_ok, requireSome_eq_ok,
    exists_const, Bool.not_eq_eq_eq_not, Bool.not_true] at answer
  obtain ⟨other, configured', ⟨_, free, rfl⟩, _, welcome, rfl⟩ := answer
  cases configured.symm.trans configured'
  exact ⟨free, welcome⟩

theorem consume_eq_ok {dependencies : Dependencies} {result : Unit}
    (configured : state.config = some dependencies)
    (answer : consume env state a = .ok result) :
    env.consume dependencies.token.val a.val 1 = true := by
  simp only [consume, deps, bind_eq_ok, require_eq_ok, requireSome_eq_ok] at answer
  obtain ⟨other, configured', charged⟩ := answer
  cases configured.symm.trans configured'
  exact charged

end Inversion

/-- Every accepted call has the effect of its method. -/
theorem effect_of_accepted {host : Host} {env : Env} {operation : Operation} {state after : State}
    {output : Output} (answer : execute host state ⟨env, operation⟩ = .ok (after, output)) :
    Effect host env state operation after output := by
  cases operation with
  | setDependencies args =>
    obtain ⟨identity, relationships, token⟩ := args
    simp only [execute, setDependencies, bind_eq_ok, pure_eq_ok, requireAuthority_eq_ok,
      Util.requireAddress_eq_ok, exists_const, Prod.mk.injEq] at answer
    obtain ⟨authorized, identity, rfl, relationships, rfl, token, rfl, rfl, rfl⟩ := answer
    exact .dependenciesSet identity relationships token authorized
  | requestConversation args =>
    obtain ⟨a, b, device, generation⟩ := args
    simp only [execute, requestConversation, deps, emit, bind_eq_ok, pure_eq_ok, require_eq_ok,
      requireSome_eq_ok, Util.requireAddress_eq_ok, exists_const, Prod.mk.injEq, beq_iff_eq,
      decide_eq_true_eq] at answer
    obtain ⟨a, rfl, b, rfl, _, authorized, _, free, dependencies, configured, registered,
      registered_eq, rfl, reopened, rfl, room, _, charged, rfl, rfl⟩ := answer
    obtain ⟨different, other, configured', authorized⟩ := authorize_eq_ok authorized
    cases configured.symm.trans configured'
    refine .requested a b device dependencies different configured authorized
      (unblocked_eq_ok configured free) registered_eq (fun old known => ?_) room
      (consume_eq_ok configured charged)
    rw [known, requestable, Option.elim_some, beq_iff_eq] at reopened
    exact reopened
  | acceptConversation args =>
    obtain ⟨a, b, device, generation⟩ := args
    simp only [execute, acceptConversation, emit, bind_eq_ok, pure_eq_ok, require_eq_ok,
      requireSome_eq_ok, Util.requireAddress_eq_ok, exists_const, Prod.mk.injEq, beq_iff_eq,
      Option.filter_eq_some_iff, Bool.and_eq_true] at answer
    obtain ⟨a, rfl, b, rfl, _, authorized, _, free, found, ⟨known, invited, rfl⟩, invitee, rfl,
      rfl⟩ := answer
    obtain ⟨different, dependencies, configured, authorized⟩ := authorize_eq_ok authorized
    exact .accepted a b device dependencies found different configured authorized
      (unblocked_eq_ok configured free) known invited invitee
  | closeConversation args =>
    obtain ⟨a, b, device, generation⟩ := args
    simp only [execute, closeConversation, emit, bind_eq_ok, pure_eq_ok, requireSome_eq_ok,
      Util.requireAddress_eq_ok, Prod.mk.injEq, beq_iff_eq, Option.filter_eq_some_iff] at answer
    obtain ⟨a, rfl, b, rfl, _, authorized, found, ⟨known, rfl⟩, rfl, rfl⟩ := answer
    obtain ⟨different, dependencies, configured, authorized⟩ := authorize_eq_ok authorized
    exact .closed a b device dependencies found different configured authorized known
  | sendMessage args =>
    obtain ⟨a, b, device, messageId, generation, envelope⟩ := args
    simp only [execute, sendMessage, bind_eq_ok, require_eq_ok, Util.requireAddress_eq_ok,
      Util.requireBytes_eq_ok, exists_const, beq_iff_eq] at answer
    obtain ⟨a, rfl, b, rfl, _, authorized, messageId, ⟨rfl, _, _⟩, idLength, envelope,
      ⟨rfl, _, _⟩, answer⟩ := answer
    obtain ⟨different, dependencies, configured, authorized⟩ := authorize_eq_ok authorized
    split at answer
    · next existing stored =>
      simp only [bind_eq_ok, pure_eq_ok, require_eq_ok, exists_const, Prod.mk.injEq, beq_iff_eq,
        Bool.and_eq_true] at answer
      obtain ⟨⟨⟨sameRecipient, rfl⟩, sameContent⟩, rfl, rfl⟩ := answer
      exact .repeated a b device messageId envelope dependencies existing different configured
        authorized idLength stored sameRecipient sameContent
    · next fresh =>
      simp only [storeMessage, bind_eq_ok, pure_eq_ok, require_eq_ok, requireSome_eq_ok,
        exists_const, Prod.mk.injEq, beq_iff_eq, Option.filter_eq_some_iff, Bool.and_eq_true,
        decide_eq_true_eq] at answer
      obtain ⟨_, free, found, ⟨known, opened, rfl⟩, room, _, charged, rfl, rfl⟩ := answer
      exact .sent a b device messageId envelope dependencies found different configured authorized
        idLength fresh (unblocked_eq_ok configured free) known opened room
        (consume_eq_ok configured charged)

/-- The effect of an entry of a history. -/
theorem effect_of_entry {host : Host} (entry : (machine host).Accepted) :
    Effect host entry.call.env entry.before entry.call.operation entry.after entry.output :=
  effect_of_accepted entry.accepted

end OpenSocial.Messaging

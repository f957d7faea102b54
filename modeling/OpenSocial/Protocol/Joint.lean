/-
This file composes the six contracts of a deployment into one machine.

A transaction is a list of operations under one set of signatures. Each runs in
the environment the joint state gives it: a contract that asks another gets the
answer of that contract's own read method, an address where none of the six is
deployed answers nothing, and a charge for usage is a call of the token contract
by the charging contract. If one operation fails, nothing of the transaction
happens. Every component of a reachable joint state is a reachable state of its
contract, so whatever is proved about one contract holds in the joint system.
-/

import OpenSocial.Communities.Contract
import OpenSocial.Identity.Contract
import OpenSocial.Messaging.Contract
import OpenSocial.Publications.Contract
import OpenSocial.Relationships.Contract
import OpenSocial.Token.Contract

namespace OpenSocial.Protocol

open Library

/-! ### Deployment, state and transactions -/

/-- Where the six contracts are deployed, on a chain with a hash system call. -/
structure Deployment where
  identity : Address
  relationships : Address
  communities : Address
  publications : Address
  messaging : Address
  token : Address
  chainId : Bytes
  hash : Bytes → Bytes

/-- What is fixed for the contract at an address. -/
def Deployment.host (deployment : Deployment) (contract : Address) : Host :=
  ⟨contract.val, deployment.chainId, deployment.hash⟩

structure State where
  identity : Identity.State
  relationships : Relationships.State
  communities : Communities.State
  publications : Publications.State
  messaging : Messaging.State
  token : Token.State

/-- One call of a mutating method of one of the contracts. -/
inductive Operation where
  | identity (operation : Identity.Operation)
  | relationships (operation : Relationships.Operation)
  | communities (operation : Communities.Operation)
  | publications (operation : Publications.Operation)
  | messaging (operation : Messaging.Operation)
  | token (operation : Token.Operation)

inductive Event where
  | identity (event : Identity.Event)
  | relationships (event : Relationships.Event)
  | communities (event : Communities.Event)
  | publications (event : Publications.Event)
  | messaging (event : Messaging.Event)
  | token (event : Token.Event)
  deriving DecidableEq, Repr

/-- The operations of a transaction run at one block time, under the same signatures. -/
structure Transaction where
  now : ℕ
  authority : Bytes → Bool
  operations : List Operation

/-! ### What an operation sees of the other contracts -/

/-- The environment of a contract that asks no other, with its caller. -/
def Transaction.alone (transaction : Transaction) (caller : Bytes) : Env where
  now := transaction.now
  authority := transaction.authority
  caller := caller
  resolveActor := fun _ _ _ _ => none
  isBlocked := fun _ _ _ => none
  getPost := fun _ _ => none
  consume := fun _ _ _ => false

section Environment

variable (deployment : Deployment) (transaction : Transaction) (state : State)

/-- How an account and device resolve at the time of the transaction. -/
def resolved (account device : Bytes) (capability : ℕ) : ResolveActorResult :=
  Identity.resolve (transaction.alone []) state.identity account device capability

/-- `consume` of the token contract, called by another contract. -/
def consume (caller : Address) (account : Bytes) (units : ℕ) :
    Except Failure (Token.State × Token.Output) :=
  Token.consume (transaction.alone caller.val) ⟨account, units⟩ state.token

/-- The environment of an operation of one contract. -/
def environment (contract : Address) : Env where
  now := transaction.now
  authority := transaction.authority
  caller := []
  resolveActor := fun asked account device capability =>
    if asked = deployment.identity.val then
      some (resolved transaction state account device capability)
    else none
  isBlocked := fun asked actor target =>
    if asked = deployment.relationships.val then
      some (Relationships.isBlocked state.relationships actor target)
    else none
  getPost := fun asked postId =>
    if asked = deployment.publications.val then
      some (Publications.getPost state.publications postId)
    else none
  consume := fun asked account units =>
    asked == deployment.token.val && (consume transaction state contract account units).toBool

/-! ### Charges -/

/-- Who pays for a relationships operation; without a token contract nobody does. -/
def relationshipsPayer (state : Relationships.State) : Relationships.Operation → Option Bytes
  | .requestFriend args => state.usage.map fun _ => args.requester
  | .follow args => state.usage.map fun _ => args.follower
  | _ => none

/-- Who pays for a publications operation: the author, and the actor of an added reaction. -/
def publicationsPayer (state : Publications.State) : Publications.Operation → Option Bytes
  | .publish args => state.usage.map fun _ => args.author
  | .react args => if args.remove then none else state.usage.map fun _ => args.actor
  | _ => none

/-- Who pays for a messaging operation; a message that is already stored costs nothing. -/
def messagingPayer (state : Messaging.State) : Messaging.Operation → Option Bytes
  | .requestConversation args => some args.actor
  | .sendMessage args =>
    if state.messages.has (Messaging.messageKey args.sender args.messageId) then none
    else some args.sender
  | _ => none

/-- What a contract's charge of one unit does to the token contract. -/
def charge (contract : Address) (payer : Option Bytes) :
    Except Failure (Token.State × List Token.Event) :=
  match payer with
  | none => pure (state.token, [])
  | some account => do
    let (after, output) ← consume transaction state contract account 1
    pure (after, output.events)

end Environment

/-! ### The joint machine -/

/-- One operation of a transaction; the events of a charge come before the operation's own. -/
def execute (deployment : Deployment) (transaction : Transaction) (state : State) :
    Operation → Except Failure (State × List Event)
  | .identity operation => do
    let (after, events) ← Identity.execute state.identity
      ⟨environment deployment transaction state deployment.identity, operation⟩
    pure ({ state with identity := after }, events.map .identity)
  | .relationships operation => do
    let (after, events) ← Relationships.execute (deployment.host deployment.relationships)
      state.relationships
      ⟨environment deployment transaction state deployment.relationships, operation⟩
    let (token, charges) ← charge transaction state deployment.relationships
      (relationshipsPayer state.relationships operation)
    pure ({ state with relationships := after, token := token },
      charges.map .token ++ events.map .relationships)
  | .communities operation => do
    let (after, events) ← Communities.execute (deployment.host deployment.communities)
      state.communities
      ⟨environment deployment transaction state deployment.communities, operation⟩
    pure ({ state with communities := after }, events.map .communities)
  | .publications operation => do
    let (after, events) ← Publications.execute (deployment.host deployment.publications)
      state.publications
      ⟨environment deployment transaction state deployment.publications, operation⟩
    let (token, charges) ← charge transaction state deployment.publications
      (publicationsPayer state.publications operation)
    pure ({ state with publications := after, token := token },
      charges.map .token ++ events.map .publications)
  | .messaging operation => do
    let (after, output) ← Messaging.execute (deployment.host deployment.messaging)
      state.messaging ⟨environment deployment transaction state deployment.messaging, operation⟩
    let (token, charges) ← charge transaction state deployment.messaging
      (messagingPayer state.messaging operation)
    pure ({ state with messaging := after, token := token },
      charges.map .token ++ output.events.map .messaging)
  | .token operation => do
    let (after, output) ← Token.execute (deployment.host deployment.token) state.token
      ⟨environment deployment transaction state deployment.token, operation⟩
    pure ({ state with token := after }, output.events.map .token)

/-- One operation of an accepted transaction, with the states around it. -/
structure Performed where
  before : State
  operation : Operation
  after : State
  events : List Event

/-- The operations of a transaction, one after the other. -/
def perform (deployment : Deployment) (transaction : Transaction) :
    State → List Operation → Except Failure (State × List Performed)
  | state, [] => pure (state, [])
  | state, operation :: rest => do
    let (after, events) ← execute deployment transaction state operation
    let (final, performed) ← perform deployment transaction after rest
    pure (final, ⟨state, operation, after, events⟩ :: performed)

def empty : State :=
  ⟨Identity.empty, Relationships.empty, Communities.empty, Publications.empty, Messaging.empty,
    Token.empty⟩

/-- The six contracts from their empty stores. -/
def machine (deployment : Deployment) : Machine State Transaction (List Performed) Failure :=
  ⟨empty, fun state transaction => perform deployment transaction state transaction.operations⟩

/-! ### Operations of an accepted transaction -/

section Performing

variable {deployment : Deployment} {transaction : Transaction}

/-- Each operation of an accepted transaction was accepted in the state it found. -/
theorem execute_of_mem {state final : State} {operations : List Operation}
    {performed : List Performed}
    (answer : perform deployment transaction state operations = .ok (final, performed))
    {entry : Performed} (member : entry ∈ performed) :
    execute deployment transaction entry.before entry.operation =
      .ok (entry.after, entry.events) := by
  induction operations generalizing state performed with
  | nil =>
    simp only [perform, pure_eq_ok, Prod.mk.injEq] at answer
    rw [← answer.2] at member
    cases member
  | cons operation rest inductionHypothesis =>
    simp only [perform, bind_eq_ok, pure_eq_ok, Prod.exists, Prod.mk.injEq] at answer
    obtain ⟨after, events, first, final', performed', remaining, rfl, rfl⟩ := answer
    rcases List.mem_cons.mp member with rfl | later
    · exact first
    · exact inductionHypothesis remaining later

/-- What every accepted operation keeps holds before each operation of a transaction and after it. -/
theorem kept_by_perform (invariant : State → Prop)
    (step : ∀ state operation after events,
      execute deployment transaction state operation = .ok (after, events) →
        invariant state → invariant after)
    {state final : State} {operations : List Operation} {performed : List Performed}
    (answer : perform deployment transaction state operations = .ok (final, performed))
    (holds : invariant state) :
    invariant final ∧ ∀ entry ∈ performed, invariant entry.before := by
  induction operations generalizing state performed with
  | nil =>
    simp only [perform, pure_eq_ok, Prod.mk.injEq] at answer
    rw [← answer.1, ← answer.2]
    exact ⟨holds, fun entry member => absurd member List.not_mem_nil⟩
  | cons operation rest inductionHypothesis =>
    simp only [perform, bind_eq_ok, pure_eq_ok, Prod.exists, Prod.mk.injEq] at answer
    obtain ⟨after, events, first, final', performed', remaining, rfl, rfl⟩ := answer
    obtain ⟨last, every⟩ := inductionHypothesis remaining (step _ _ _ _ first holds)
    refine ⟨last, fun entry member => ?_⟩
    rcases List.mem_cons.mp member with rfl | later
    · exact holds
    · exact every entry later

/-- What every accepted operation keeps holds before every operation a run performs. -/
theorem invariant_performed (invariant : State → Prop) (initial : invariant empty)
    (step : ∀ transaction state operation after events,
      execute deployment transaction state operation = .ok (after, events) →
        invariant state → invariant after)
    (transactions : List Transaction) :
    ∀ entry ∈ (machine deployment).history (machine deployment).initial transactions,
      ∀ performed ∈ entry.output, invariant performed.before := by
  refine ((machine deployment).run_induction (machine deployment).initial
    (fun history state => invariant state ∧
      ∀ entry ∈ history, ∀ performed ∈ entry.output, invariant performed.before)
    ⟨initial, fun entry member => absurd member List.not_mem_nil⟩ ?_ transactions).2
  intro history entry ⟨holds, earlier⟩
  obtain ⟨last, every⟩ := kept_by_perform invariant (step entry.call) entry.accepted holds
  refine ⟨last, fun other member => ?_⟩
  rcases List.mem_append.mp member with old | new
  · exact earlier other old
  · rw [List.mem_singleton.mp new]
    exact every

/-! ### The contracts inside the joint machine -/

/-- Every component is a state its own contract can reach. -/
structure Composed (deployment : Deployment) (state : State) : Prop where
  identity : Identity.machine.Reachable state.identity
  relationships : (Relationships.machine (deployment.host deployment.relationships)).Reachable
    state.relationships
  communities : (Communities.machine (deployment.host deployment.communities)).Reachable
    state.communities
  publications : (Publications.machine (deployment.host deployment.publications)).Reachable
    state.publications
  messaging : (Messaging.machine (deployment.host deployment.messaging)).Reachable state.messaging
  token : (Token.machine (deployment.host deployment.token)).Reachable state.token

/-- A charge is a call of the token contract. -/
theorem reachable_of_charge {state : State} {contract : Address} {payer : Option Bytes}
    {token : Token.State} {charges : List Token.Event} (host : Host)
    (reached : (Token.machine host).Reachable state.token)
    (answer : charge transaction state contract payer = .ok (token, charges)) :
    (Token.machine host).Reachable token := by
  cases payer with
  | none =>
    simp only [charge, pure_eq_ok, Prod.mk.injEq] at answer
    rw [← answer.1]
    exact reached
  | some account =>
    simp only [charge, bind_eq_ok, pure_eq_ok, Prod.exists, Prod.mk.injEq] at answer
    obtain ⟨after, output, consumed, rfl, _⟩ := answer
    let call : Token.Call := ⟨transaction.alone contract.val, .consume ⟨account, 1⟩⟩
    have step : (Token.machine host).step state.token call = .ok (after, output) := consumed
    exact (Token.machine host).reachable_step reached step

theorem composed_execute {state after : State} {operation : Operation} {events : List Event}
    (answer : execute deployment transaction state operation = .ok (after, events))
    (composed : Composed deployment state) : Composed deployment after := by
  obtain ⟨identity, relationships, communities, publications, messaging, token⟩ := composed
  cases operation with
  | identity operation =>
    simp only [execute, bind_eq_ok, pure_eq_ok, Prod.exists, Prod.mk.injEq] at answer
    obtain ⟨next, emitted, accepted, rfl, _⟩ := answer
    exact ⟨Identity.machine.reachable_step identity accepted, relationships, communities,
      publications, messaging, token⟩
  | relationships operation =>
    simp only [execute, bind_eq_ok, pure_eq_ok, Prod.exists, Prod.mk.injEq] at answer
    obtain ⟨next, emitted, accepted, charged, charges, charging, rfl, _⟩ := answer
    exact ⟨identity, (Relationships.machine _).reachable_step relationships accepted, communities,
      publications, messaging, reachable_of_charge _ token charging⟩
  | communities operation =>
    simp only [execute, bind_eq_ok, pure_eq_ok, Prod.exists, Prod.mk.injEq] at answer
    obtain ⟨next, emitted, accepted, rfl, _⟩ := answer
    exact ⟨identity, relationships, (Communities.machine _).reachable_step communities accepted,
      publications, messaging, token⟩
  | publications operation =>
    simp only [execute, bind_eq_ok, pure_eq_ok, Prod.exists, Prod.mk.injEq] at answer
    obtain ⟨next, emitted, accepted, charged, charges, charging, rfl, _⟩ := answer
    exact ⟨identity, relationships, communities,
      (Publications.machine _).reachable_step publications accepted, messaging,
      reachable_of_charge _ token charging⟩
  | messaging operation =>
    simp only [execute, bind_eq_ok, pure_eq_ok, Prod.exists, Prod.mk.injEq] at answer
    obtain ⟨next, emitted, accepted, charged, charges, charging, rfl, _⟩ := answer
    exact ⟨identity, relationships, communities, publications,
      (Messaging.machine _).reachable_step messaging accepted,
      reachable_of_charge _ token charging⟩
  | token operation =>
    simp only [execute, bind_eq_ok, pure_eq_ok, Prod.exists, Prod.mk.injEq] at answer
    obtain ⟨next, emitted, accepted, rfl, _⟩ := answer
    exact ⟨identity, relationships, communities, publications, messaging,
      (Token.machine _).reachable_step token accepted⟩

/-- In every run of the joint machine, each operation finds every contract in a state that contract
can reach. -/
theorem composed_performed (deployment : Deployment) (transactions : List Transaction) :
    ∀ entry ∈ (machine deployment).history (machine deployment).initial transactions,
      ∀ performed ∈ entry.output, Composed deployment performed.before := by
  refine invariant_performed (Composed deployment) ?_
    (fun _ _ _ _ _ answer composed => composed_execute answer composed) transactions
  exact ⟨Identity.machine.reachable_initial, (Relationships.machine _).reachable_initial,
    (Communities.machine _).reachable_initial, (Publications.machine _).reachable_initial,
    (Messaging.machine _).reachable_initial, (Token.machine _).reachable_initial⟩

end Performing

end OpenSocial.Protocol

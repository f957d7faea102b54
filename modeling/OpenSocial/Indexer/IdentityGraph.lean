/-
This file shows that the identity and the relationships projection together
mirror the two contracts, in whatever order their calls interleave.

Each handler writes its own tables, so the events of one contract leave the
mirror of the other as it is.
-/

import OpenSocial.Indexer.Identity
import OpenSocial.Indexer.Relationships

namespace OpenSocial.Indexer

open Library

/-! ### The tables of the other contract -/

section Frame

variable {sdk : Sdk} {injective : Function.Injective sdk.toBase58} {db : Database}

/-- The events of the identity contract write no table of the graph. -/
theorem GraphMirrored.of_identity {state : Relationships.State} {records : List LogEvent}
    {events : List Identity.Event} (logs : records.map LogEvent.event = events.map .identity)
    (mirrored : GraphMirrored sdk injective db state) :
    GraphMirrored sdk injective (records.foldl (applyEvent sdk) db) state := by
  refine foldl_applyEvent_keeps sdk (GraphMirrored sdk injective · state) mirrored
    fun log member db mirrored => ?_
  obtain ⟨data, -, event⟩ := List.mem_map.mp (logs ▸ List.mem_map_of_mem member)
  rw [applyEvent, ← event]
  show GraphMirrored sdk injective (applyIdentity db log data) state
  obtain ⟨identities, devices, notifications, applied⟩ := applyIdentity_eq db log data
  rw [applied]
  exact ⟨mirrored.edges, mirrored.blocks, mirrored.follows, mirrored.audiences⟩

/-- The events of the relationships contract write neither accounts nor devices. -/
theorem accounts_of_relationships (sdk : Sdk) (db : Database) {records : List LogEvent} {events : List Relationships.Event}
    (logs : records.map LogEvent.event = events.map .relationships) :
    (records.foldl (applyEvent sdk) db).identities = db.identities ∧
      (records.foldl (applyEvent sdk) db).devices = db.devices := by
  refine foldl_applyEvent_keeps sdk
    (fun current => current.identities = db.identities ∧ current.devices = db.devices) ⟨rfl, rfl⟩
    fun log member current kept => ?_
  obtain ⟨data, -, event⟩ := List.mem_map.mp (logs ▸ List.mem_map_of_mem member)
  rw [applyEvent, ← event]
  show (applyRelationships sdk current log data).identities = db.identities ∧
    (applyRelationships sdk current log data).devices = db.devices
  obtain ⟨_, _, _, _, _, applied⟩ := applyRelationships_eq sdk current log data
  rw [applied]
  exact kept

end Frame

/-! ### Sets of pairs -/

section Pairs

variable {sdk : Sdk} {injective : Function.Injective sdk.toBase58} {db : Database}
  {state : Relationships.State}

/-- A row of the block list is a block in force. -/
theorem GraphMirrored.blocked_iff (mirrored : GraphMirrored sdk injective db state)
    (actor target : Address) :
    (db.blocksList.get (actor, target)).isSome =
      Relationships.hasBlocked state actor.val target.val := by
  have agree := mirrored.blocks (actor, target)
  have agree : (db.blocksList.get (actor, target)).map blockLink.ofRow =
    (state.blocks.get (Relationships.directedKey actor.val target.val)).map blockLink.ofRecord :=
    agree
  rw [Relationships.hasBlocked]
  cases row : db.blocksList.get (actor, target) with
  | none =>
    rw [row, Option.map_none, eq_comm, Option.map_eq_none_iff] at agree
    rw [agree]
    rfl
  | some row' =>
    rw [row, Option.map_some, eq_comm, Option.map_eq_some_iff] at agree
    obtain ⟨record, stored, view⟩ := agree
    rw [stored]
    exact (congrArg Relationships.BlockRecord.blocked view).symm

/-- A row of the follows is an active follow. -/
theorem GraphMirrored.following_iff (mirrored : GraphMirrored sdk injective db state)
    (follower target : Address) :
    (db.follows.get (follower, target)).isSome =
      Relationships.isFollowing state follower.val target.val := by
  have agree := mirrored.follows (follower, target)
  have agree : (db.follows.get (follower, target)).map followLink.ofRow =
    (state.follows.get (Relationships.directedKey follower.val target.val)).map
      followLink.ofRecord := agree
  rw [Relationships.isFollowing]
  cases row : db.follows.get (follower, target) with
  | none =>
    rw [row, Option.map_none, eq_comm, Option.map_eq_none_iff] at agree
    rw [agree]
    rfl
  | some row' =>
    rw [row, Option.map_some, eq_comm, Option.map_eq_some_iff] at agree
    obtain ⟨record, stored, view⟩ := agree
    rw [stored]
    exact (congrArg Relationships.FollowRecord.active view).symm

end Pairs

/-! ### Every interleaved run -/

/-- The two contracts, called in any order. -/
def accountMachine (host : Host) :
    Machine (Identity.State × Relationships.State) (Identity.Call ⊕ Relationships.Call)
      (List Identity.Event ⊕ List Relationships.Event) OpenSocial.Failure :=
  interleave Identity.machine (Relationships.machine host)

/-- What the event log records of a call of one of them. -/
def accountEvents : List Identity.Event ⊕ List Relationships.Event → List ProtocolEvent :=
  Sum.elim (List.map .identity) (List.map .relationships)

def accountsEmpty : Identity.State × Relationships.State :=
  (Identity.empty, Relationships.empty)

/-- The invariant of an interleaved run. -/
structure AccountsTracked (sdk : Sdk) (injective : Function.Injective sdk.toBase58)
    (state : Identity.State × Relationships.State) (db : Database) : Prop where
  owned : RecoveryOwned state.1
  accounts : AccountsMirrored db state.1
  devices : deviceLink.Mirrors db.devices state.1.devices
  graph : Relationships.GraphInvariant state.2
  mirrored : GraphMirrored sdk injective db state.2

section Run

variable (sdk : Sdk) (injective : Function.Injective sdk.toBase58) (host : Host)

theorem accountsTracked_empty : AccountsTracked sdk injective accountsEmpty .empty where
  owned _ _ := rfl
  accounts _ := rfl
  devices := Correspondence.mirrors_empty
  graph := Relationships.graphInvariant_empty
  mirrored :=
    { edges := Correspondence.mirrors_empty
      blocks := Correspondence.mirrors_empty
      follows := Correspondence.mirrors_empty
      audiences := fun account epoch => by
        have none : Relationships.epochOf Relationships.empty account = 0 := rfl
        have absent : (Database.empty.audiences.get (account, epoch)).isSome = false := rfl
        rw [accountsEmpty, none, absent]
        simp only [Bool.false_eq_true, false_iff]
        omega }

theorem accountsTracked_step (entry : (accountMachine host).Accepted) {db : Database}
    {records : List LogEvent} (logs : records.map LogEvent.event = accountEvents entry.output)
    (tracked : AccountsTracked sdk injective entry.before db) :
    AccountsTracked sdk injective entry.after (records.foldl (applyEvent sdk) db) := by
  rcases interleave_accepted entry with ⟨own, before, -, after, output⟩ | ⟨own, before, -, after, output⟩
  · have effect := Identity.effect_of_entry own
    rw [output] at logs
    rw [after]
    rw [before] at effect
    exact
      { owned := recoveryOwned_step effect tracked.owned
        accounts := accounts_step sdk effect logs tracked.owned tracked.accounts
        devices := devices_step sdk effect logs tracked.devices
        graph := tracked.graph
        mirrored := tracked.mirrored.of_identity logs }
  · have effect := Relationships.effect_of_entry own
    rw [output] at logs
    rw [after]
    rw [before] at effect
    obtain ⟨identities, devices⟩ := accounts_of_relationships sdk db logs
    exact
      { owned := tracked.owned
        accounts := fun account => by
          rw [identities]
          exact tracked.accounts account
        devices := by
          rw [devices]
          exact tracked.devices
        graph := Relationships.graphInvariant_step effect tracked.graph
        mirrored := graph_step effect logs tracked.graph tracked.mirrored }

/-- After every interleaved run and every log of it, the tables show every account, device, edge,
block, follow and audience epoch as the contracts have them. -/
theorem identity_graph_refined (calls : List (Identity.Call ⊕ Relationships.Call))
    (records : List LogEvent)
    (logs : (accountMachine host).Logs accountEvents LogEvent.event
      ((accountMachine host).history accountsEmpty calls) records) :
    AccountsMirrored (replayProjections sdk records)
        ((accountMachine host).final accountsEmpty calls).1 ∧
      deviceLink.Mirrors (replayProjections sdk records).devices
        ((accountMachine host).final accountsEmpty calls).1.devices ∧
      (edgeLink sdk injective).Mirrors (replayProjections sdk records).relationships
        ((accountMachine host).final accountsEmpty calls).2.edges ∧
      (∀ actor target : Address,
        ((replayProjections sdk records).blocksList.get (actor, target)).isSome =
          Relationships.hasBlocked ((accountMachine host).final accountsEmpty calls).2 actor.val
            target.val) ∧
      (∀ follower target : Address,
        ((replayProjections sdk records).follows.get (follower, target)).isSome =
          Relationships.isFollowing ((accountMachine host).final accountsEmpty calls).2
            follower.val target.val) ∧
      ∀ account : Address,
        currentEpoch (replayProjections sdk records) account =
          Relationships.epochOf ((accountMachine host).final accountsEmpty calls).2 account := by
  have tracked := (accountMachine host).projection_induction accountEvents LogEvent.event
    (applyEvent sdk) accountsEmpty .empty
    (fun _ state db => AccountsTracked sdk injective state db)
    (accountsTracked_empty sdk injective)
    (fun _ entry _ _ tracked logs => accountsTracked_step sdk injective host entry logs tracked)
    calls records logs
  exact ⟨tracked.accounts, tracked.devices, tracked.mirrored.edges, tracked.mirrored.blocked_iff,
    tracked.mirrored.following_iff, currentEpoch_eq tracked.mirrored.audiences⟩

end Run

/-! ### A friendship that ends in a block -/

/-- Two accounts register, the first names a guardian, they become friends, and the second blocks
the first. -/
def blockRun : List (Identity.Call ⊕ Relationships.Call) :=
  let first := Address.repeated 1
  let second := Address.repeated 2
  let env := Env.signedBy first.val
  let key := List.replicate 32 (0 : UInt8)
  [.inl ⟨env 1, .register ⟨first.val, key, 1, [], ""⟩⟩,
    .inr ⟨env 1, .setIdentityContract ⟨(Address.repeated 9).val⟩⟩,
    .inl ⟨env 2, .register ⟨second.val, key, 1, [], ""⟩⟩,
    .inr ⟨env 3, .requestFriend ⟨first.val, second.val, []⟩⟩,
    .inl ⟨env 3, .setRecoveryPolicy ⟨first.val, some ⟨[second.val], 1, Identity.DAY_MS⟩⟩⟩,
    .inr ⟨env 4, .acceptFriend ⟨second.val, first.val, [], []⟩⟩,
    .inr ⟨env 5, .block ⟨second.val, first.val⟩⟩]

/-- The log of that run. -/
def blockLog : List LogEvent :=
  let contracts := accountMachine ⟨[], [], id⟩
  logOf (contracts.emitted accountEvents (contracts.history accountsEmpty blockRun))

theorem identity_graph_refined_blockRun :
    ((accountMachine ⟨[], [], id⟩).history accountsEmpty blockRun).length = 7 ∧
      ((replayProjections Sdk.standard blockLog).blocksList.get
        (Address.repeated 2, Address.repeated 1)).isSome = true ∧
      currentEpoch (replayProjections Sdk.standard blockLog) (Address.repeated 1) = 1 := by
  obtain ⟨_, _, _, blocked, _, epochs⟩ := identity_graph_refined Sdk.standard
    Sdk.standard_injective ⟨[], [], id⟩ blockRun blockLog (map_event_logOf _)
  refine ⟨by decide +kernel, ?_, ?_⟩
  · rw [blocked]
    decide +kernel
  · rw [epochs]
    decide +kernel

end OpenSocial.Indexer

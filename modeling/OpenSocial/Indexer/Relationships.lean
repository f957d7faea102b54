/-
This file shows that the relationships projection mirrors the relationships
contract: edges, blocks, follows and the audience epoch of every account.

Both keep an edge under a sorted pair, the contract by the bytes of the accounts
and the projection by their Base58 text. A block emits no event for the edge it
ends, and the projection ends the edge itself with the next nonce, which agrees
because no nonce of the contract ever wraps.
-/

import OpenSocial.Indexer.Projections
import OpenSocial.Library.Mirror
import OpenSocial.Relationships.Graph

namespace OpenSocial.Indexer

open Library Library.Word Relationships

/-! ### Sorted pairs -/

/-- Different accounts have different texts, so the text order tells them apart. -/
theorem decides_toBase58 {sdk : Sdk} (injective : Function.Injective sdk.toBase58) :
    SortedPair.Decides fun x y : Address => sdk.toBase58 x < sdk.toBase58 y := by
  intro first second alike
  have alike := decide_eq_decide.mp alike
  refine injective ?_
  rcases lt_trichotomy (sdk.toBase58 first) (sdk.toBase58 second) with below | same | above
  · exact absurd (alike.mp below) below.asymm
  · exact same
  · exact absurd (alike.mpr above) above.asymm

theorem pairKey_eq_iff {sdk : Sdk} (injective : Function.Injective sdk.toBase58)
    {x y first second : Address} :
    pairKey sdk x y = pairKey sdk first second ↔ SamePair x y first second := by
  have sorted : ∀ x y, pairKey sdk x y =
      sortedPair (fun x y : Address => sdk.toBase58 x < sdk.toBase58 y) x y := by
    intro x y
    unfold pairKey sortedPair
    by_cases before : sdk.toBase58 x < sdk.toBase58 y
    · rw [if_pos before, if_pos (by simpa using before)]
    · rw [if_neg before, if_neg (by simpa using before)]
  rw [sorted, sorted]
  exact SortedPair.eq_iff (decides_toBase58 injective) x y first second

/-! ### What is compared -/

/-- What is compared of an edge. -/
structure EdgeView where
  status : RelationshipStatus
  requester : Option Address
  nonce : ℕ
  deriving DecidableEq, Repr

/-- Edges are kept under the sorted pair by both. -/
def edgeLink (sdk : Sdk) (injective : Function.Injective sdk.toBase58) :
    Correspondence (Address × Address) (Address × Address) Bytes RelationshipRow
      RelationshipRecord EdgeView where
  tableKey pair := pairKey sdk pair.1 pair.2
  storeKey pair := Relationships.pairKey pair.1.val pair.2.val
  aligned first second := by rw [pairKey_eq_iff injective, pairKey_inj]
  ofRow row := ⟨row.status, row.requester, row.nonce⟩
  ofRecord record := ⟨record.status, some record.requester, record.nonce⟩

theorem aligned_directedKey (first second : Address × Address) :
    first = second ↔
      directedKey first.1.val first.2.val = directedKey second.1.val second.2.val := by
  rw [directedKey_inj, Prod.ext_iff]

/-- Blocks are kept under actor and target by both; a row stands for a block in force. -/
def blockLink :
    Correspondence (Address × Address) (Address × Address) Bytes SinceRow BlockRecord
      BlockRecord where
  tableKey := id
  storeKey pair := directedKey pair.1.val pair.2.val
  aligned := aligned_directedKey
  ofRow row := ⟨true, row.since⟩
  ofRecord := id

/-- Follows are kept under follower and target by both; a row stands for an active follow. -/
def followLink :
    Correspondence (Address × Address) (Address × Address) Bytes SinceRow FollowRecord
      FollowRecord where
  tableKey := id
  storeKey pair := directedKey pair.1.val pair.2.val
  aligned := aligned_directedKey
  ofRow row := ⟨true, row.since⟩
  ofRecord := id

/-- The current epoch of an account: the greatest one among its rows, zero without a row. -/
def currentEpoch (db : Database) (account : Address) : ℕ :=
  (db.audiences.keys.filter fun key => key.1 = account).sup Prod.snd

/-- The rows of an account are its epochs from one to the current one. -/
def AudiencesTracked (state : State) (db : Database) : Prop :=
  ∀ account epoch, (db.audiences.get (account, epoch)).isSome = true ↔
    1 ≤ epoch ∧ epoch ≤ epochOf state account

theorem currentEpoch_eq {state : State} {db : Database} (tracked : AudiencesTracked state db)
    (account : Address) : currentEpoch db account = epochOf state account := by
  have member : ∀ key : Address × ℕ, key ∈ db.audiences.keys ↔
      (db.audiences.get key).isSome = true := by
    intro key
    rw [Store.get, Option.isSome_iff_exists, Finmap.mem_keys, ← Finmap.lookup_isSome,
      Option.isSome_iff_exists]
  apply le_antisymm
  · refine Finset.sup_le fun key inside => ?_
    rw [Finset.mem_filter, member] at inside
    obtain ⟨present, rfl⟩ := inside
    exact ((tracked key.1 key.2).mp present).2
  · rcases Nat.eq_zero_or_pos (epochOf state account) with none | some
    · rw [none]
      exact Nat.zero_le _
    · have present : (account, epochOf state account) ∈
          db.audiences.keys.filter fun key => key.1 = account := by
        rw [Finset.mem_filter, member, tracked]
        exact ⟨⟨some, le_refl _⟩, rfl⟩
      exact Finset.le_sup_of_le present (le_refl _)

/-- The tables of the relationships projection show what the contract has. -/
structure GraphMirrored (sdk : Sdk) (injective : Function.Injective sdk.toBase58) (db : Database)
    (state : State) : Prop where
  edges : (edgeLink sdk injective).Mirrors db.relationships state.edges
  blocks : blockLink.Mirrors db.blocksList state.blocks
  follows : followLink.Mirrors db.follows state.follows
  audiences : AudiencesTracked state db

/-! ### One call -/

section Step

variable {sdk : Sdk} {injective : Function.Injective sdk.toBase58} {host : Host} {env : Env}
  {operation : Operation} {state after : State} {events : List Event} {db next : Database}
  {records : List LogEvent}

/-- The next epoch of an account gets the next row. -/
theorem GraphMirrored.rotate (mirrored : GraphMirrored sdk injective db state) (account : Address)
    (now : ℕ) (row : AudienceRow) :
    GraphMirrored sdk injective
      { db with audiences := db.audiences.put (account, epochOf state account + 1) row }
      (rotated state account now) where
  edges := mirrored.edges
  blocks := mirrored.blocks
  follows := mirrored.follows
  audiences other epoch := by
    have before := mirrored.audiences other epoch
    rw [Store.get_put, epochOf_rotated]
    by_cases own : other = account
    · subst own
      rw [if_pos rfl]
      by_cases last : epoch = epochOf state other + 1
      · rw [if_pos (by rw [last])]
        simp only [Option.isSome_some, true_iff]
        omega
      · rw [if_neg fun same => last (Prod.mk.inj same).2, before]
        omega
    · rw [if_neg fun same => own (Prod.mk.inj same).1, if_neg own, before]

/-- The handler of a rotation, given the event of it. -/
theorem GraphMirrored.apply_rotated (mirrored : GraphMirrored sdk injective db state)
    {log : LogEvent} {account : Address} {epoch now : ℕ} {reason : String}
    (event : log.event = .relationships (.audienceRotated account epoch reason now))
    (advanced : epoch = epochOf state account + 1) :
    GraphMirrored sdk injective (applyEvent sdk db log) (rotated state account now) := by
  rw [applyEvent, event, advanced]
  exact mirrored.rotate account now _

/-- The notifications are no part of what is mirrored. -/
theorem GraphMirrored.notified (mirrored : GraphMirrored sdk injective db state) (log : LogEvent)
    (ts : ℕ) (input : NotificationInput) :
    GraphMirrored sdk injective (notify db log ts input) state where
  edges := by
    rw [notify_frame Database.relationships fun _ _ => rfl]
    exact mirrored.edges
  blocks := by
    rw [notify_frame Database.blocksList fun _ _ => rfl]
    exact mirrored.blocks
  follows := by
    rw [notify_frame Database.follows fun _ _ => rfl]
    exact mirrored.follows
  audiences account epoch := by
    rw [notify_frame Database.audiences fun _ _ => rfl]
    exact mirrored.audiences account epoch

/-- Writing an edge and a row that show the same keeps the mirror. -/
theorem GraphMirrored.upsert (mirrored : GraphMirrored sdk injective db state) (x y : Address)
    {row : RelationshipRow} {record : RelationshipRecord}
    (same : (edgeLink sdk injective).ofRow row = (edgeLink sdk injective).ofRecord record) :
    GraphMirrored sdk injective (upsertRelationship db (pairKey sdk x y) row)
      (state.putEdge x y record) where
  edges := by
    have kept : (edgeLink sdk injective).Mirrors
        (db.relationships.put ((edgeLink sdk injective).tableKey (x, y)) row)
        (state.edges.put ((edgeLink sdk injective).storeKey (x, y)) record) :=
      mirrored.edges.put same
    exact kept
  blocks := mirrored.blocks
  follows := mirrored.follows
  audiences := mirrored.audiences

/-- The row of a stored edge. -/
theorem GraphMirrored.found (mirrored : GraphMirrored sdk injective db state) {x y : Address}
    {edge : RelationshipRecord} (known : edgeOf state x y = some edge) :
    ∃ row, getRelationship sdk db x y = some row ∧ row.status = edge.status ∧
      row.requester = some edge.requester ∧ row.nonce = edge.nonce := by
  have stored : state.edges.get ((edgeLink sdk injective).storeKey (x, y)) = some edge := known
  obtain ⟨row, present, view⟩ := mirrored.edges.found stored
  have view := EdgeView.mk.inj view
  exact ⟨row, present, view⟩

/-- A block ends the row of an open edge as the contract ends the edge. -/
theorem GraphMirrored.ended (mirrored : GraphMirrored sdk injective db state)
    (actor target : Address) (ts : ℕ)
    (room : ∀ edge, edgeOf state actor target = some edge →
      wrapAdd 64 edge.nonce 1 = edge.nonce + 1) :
    GraphMirrored sdk injective (endRelationship sdk db actor target ts)
      (endEdge env actor target state) := by
  unfold endEdge endRelationship
  cases known : state.edges.get (Relationships.pairKey actor.val target.val) with
  | none =>
    have absent : getRelationship sdk db actor target = none := by
      have agree := mirrored.edges (actor, target)
      have agree : (db.relationships.get (pairKey sdk actor target)).map
          (edgeLink sdk injective).ofRow =
        (state.edges.get (Relationships.pairKey actor.val target.val)).map
          (edgeLink sdk injective).ofRecord := agree
      rw [known, Option.map_none, Option.map_eq_none_iff] at agree
      exact agree
    rw [absent]
    exact mirrored
  | some edge =>
    obtain ⟨row, present, status, requester, nonce⟩ := mirrored.found known
    rw [present]
    by_cases ends : endsEdge edge = true
    · have open_ : row.status = .pending ∨ row.status = .active := by
        rw [status]
        simpa [endsEdge] using ends
      simp only [ends, if_true, if_pos open_]
      refine mirrored.upsert actor target ?_
      simp only [edgeLink, requester, nonce, room edge known]
    · have closed : ¬(row.status = .pending ∨ row.status = .active) := by
        rw [status]
        simpa [endsEdge] using ends
      simp only [ends, if_neg closed]
      exact mirrored

/-- The handler of a block, given the event of it. -/
theorem GraphMirrored.apply_blocked (mirrored : GraphMirrored sdk injective db state)
    (graph : GraphInvariant state) {log : LogEvent} {actor target : Address} {epoch : ℕ}
    (event : log.event = .relationships (.blocked actor target epoch env.now)) :
    GraphMirrored sdk injective (applyEvent sdk db log) (blockedState state actor target env) := by
  rw [applyEvent, event]
  have blocked : GraphMirrored sdk injective
      { db with blocksList := db.blocksList.put (actor, target) ⟨env.now⟩ }
      (state.putBlock actor target ⟨true, env.now⟩) :=
    ⟨mirrored.edges, mirrored.blocks.put rfl, mirrored.follows, mirrored.audiences⟩
  have ended : GraphMirrored sdk injective _
      (endEdge env actor target (state.putBlock actor target ⟨true, env.now⟩)) :=
    blocked.ended actor target env.now fun edge known => by
      have known : edgeOf state actor target = some edge := known
      have room := nonce_room (graph.nonces actor target) graph.epochs
      rw [nonceOf_eq known] at room
      exact room
  exact ⟨ended.edges, ended.blocks, (ended.follows.remove).remove, ended.audiences⟩

theorem graph_step (effect : Effect host env state operation after events)
    (logs : records.map LogEvent.event = events.map .relationships) (graph : GraphInvariant state)
    (mirrored : GraphMirrored sdk injective db state) :
    GraphMirrored sdk injective (records.foldl (applyEvent sdk) db) after := by
  cases effect with
  | tokenContractSet address authorized =>
    rw [List.map_eq_nil_iff.mp logs]
    exact ⟨mirrored.edges, mirrored.blocks, mirrored.follows, mirrored.audiences⟩
  | identityContractSet address authorized =>
    rw [List.map_eq_nil_iff.mp logs]
    exact ⟨mirrored.edges, mirrored.blocks, mirrored.follows, mirrored.audiences⟩
  | requested requester recipient device signer nonce different authorized registered free welcome
      next charged =>
    obtain ⟨log, event, applied⟩ := foldl_applyEvent_singleton sdk db logs
    rw [applied, applyEvent, event]
    exact (mirrored.upsert requester recipient rfl).notified _ _ _
  | accepted approver requester device keyPackageRef signer edge different authorized free welcome
      known pending sent =>
    obtain ⟨log, event, applied⟩ := foldl_applyEvent_singleton sdk db logs
    rw [applied, applyEvent, event]
    refine (mirrored.upsert approver requester ?_).notified _ _ _
    subst sent
    rfl
  | removed actor peer device signer edge different authorized known active room peerRoom =>
    obtain ⟨first, rest, ends, others, applied⟩ := foldl_applyEvent_cons sdk db logs
    obtain ⟨second, last, own, others, applied'⟩ := foldl_applyEvent_cons sdk _ others
    obtain ⟨third, back, applied''⟩ := foldl_applyEvent_singleton sdk _ others
    rw [applied, applied', applied'']
    have ended : GraphMirrored sdk injective (applyEvent sdk db first)
        (state.putEdge actor peer (moved edge .inactive env.now)) := by
      obtain ⟨row, present, status, requester, nonce⟩ := mirrored.found known
      rw [applyEvent, ends]
      refine mirrored.upsert actor peer ?_
      simp only [present, Option.bind_some, requester]
      rfl
    refine (ended.apply_rotated own rfl).apply_rotated back ?_
    rw [epochOf_rotated_other _ _ different.symm, putEdge_epochOf]
  | blockedOther actor target signer different authorized fresh room apart =>
    obtain ⟨first, rest, blocks, others, applied⟩ := foldl_applyEvent_cons sdk db logs
    obtain ⟨second, own, applied'⟩ := foldl_applyEvent_singleton sdk _ others
    rw [applied, applied']
    exact (mirrored.apply_blocked graph blocks).apply_rotated own (by rw [epochOf_blockedState])
  | blockedFriend actor target signer different authorized fresh room targetRoom friends =>
    obtain ⟨first, rest, blocks, others, applied⟩ := foldl_applyEvent_cons sdk db logs
    obtain ⟨second, last, own, others, applied'⟩ := foldl_applyEvent_cons sdk _ others
    obtain ⟨third, back, applied''⟩ := foldl_applyEvent_singleton sdk _ others
    rw [applied, applied', applied'']
    refine ((mirrored.apply_blocked graph blocks).apply_rotated own
      (by rw [epochOf_blockedState])).apply_rotated back ?_
    rw [epochOf_rotated_other _ _ different.symm, epochOf_blockedState]
  | unblocked actor target signer different authorized blocked =>
    obtain ⟨log, event, applied⟩ := foldl_applyEvent_singleton sdk db logs
    rw [applied, applyEvent, event]
    exact ⟨mirrored.edges, mirrored.blocks.remove, mirrored.follows, mirrored.audiences⟩
  | followed follower target device signer different authorized registered free welcome fresh
      charged =>
    obtain ⟨log, event, applied⟩ := foldl_applyEvent_singleton sdk db logs
    rw [applied, applyEvent, event]
    exact ⟨mirrored.edges, mirrored.blocks, mirrored.follows.put rfl, mirrored.audiences⟩
  | unfollowed follower target device signer different authorized following =>
    obtain ⟨log, event, applied⟩ := foldl_applyEvent_singleton sdk db logs
    rw [applied, applyEvent, event]
    exact ⟨mirrored.edges, mirrored.blocks, mirrored.follows.remove, mirrored.audiences⟩
  | audienceRotated actor device signer authorized room =>
    obtain ⟨log, event, applied⟩ := foldl_applyEvent_singleton sdk db logs
    rw [applied]
    exact mirrored.apply_rotated event rfl

end Step

end OpenSocial.Indexer

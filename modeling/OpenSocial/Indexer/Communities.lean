/-
This file compares the communities projection with the communities contract.

The communities table mirrors the contract after every run. The roles table does
not: an ownership transfer drops the stored role of the new owner, and its event
leaves the row in place. The row and the record of a pair agree exactly when no
transfer has dropped that role since it was last set.
-/

import OpenSocial.Communities.Effects
import OpenSocial.Indexer.Projections
import OpenSocial.Library.Mirror

namespace OpenSocial.Indexer

open Library Library.Word Communities

/-! ### What is compared -/

/-- What the communities table and the contract both hold of a community. -/
structure CommunityView where
  owner : Address
  name : String
  policyHash : Bytes
  policyUri : String
  transferDelayMs : ℕ
  pendingOwner : Option Address
  transferEffectiveAt : ℕ
  createdAt : ℕ
  deriving DecidableEq, Repr

def CommunityView.ofRow (row : CommunityRow) : CommunityView :=
  ⟨row.owner, row.name, row.policyHash, row.policyUri, row.transferDelayMs, row.pendingOwner,
    row.transferEffectiveAt, row.createdAt⟩

def CommunityView.ofRecord (record : CommunityRecord) : CommunityView :=
  ⟨record.owner, record.name, record.policyHash, record.policyUri, record.transferDelayMs,
    record.pendingOwner, record.transferEffectiveAt, record.createdAt⟩

/-- Communities are kept under their id by both. -/
def communityLink :
    Correspondence Bytes Bytes Bytes CommunityRow CommunityRecord CommunityView where
  tableKey := id
  storeKey := id
  aligned := Correspondence.aligned_id
  ofRow := CommunityView.ofRow
  ofRecord := CommunityView.ofRecord

/-- Roles are kept under community and subject by both, and every column is compared. -/
def roleLink :
    Correspondence (Bytes × Address) (Bytes × Address) Bytes RoleRow RoleRecord RoleRecord where
  tableKey := id
  storeKey pair := roleKey pair.1 pair.2.val
  aligned first second := by
    rw [roleKey, roleKey, Util.concat_inj_address, id, id, Prod.ext_iff]
  ofRow row := ⟨row.role, row.scope, row.expiresAt, row.grantedBy, row.grantedAt⟩
  ofRecord record := record

/-! ### Dropped roles -/

/-- The call sets the role of a subject in a community. -/
def setsRole (communityId : Bytes) (subject : Address) : Operation → Bool
  | .setRole args => args.communityId == communityId && args.subject == subject.val
  | _ => false

/-- The call, made in a state, executes a transfer to a subject that has a stored role. -/
def dropsRole (communityId : Bytes) (subject : Address) (state : State) : Operation → Bool
  | .executeOwnerTransfer args =>
    args.communityId == communityId &&
      (state.communities.get communityId).bind CommunityRecord.pendingOwner == some subject &&
      state.roles.has (roleKey communityId subject.val)
  | _ => false

section Run

variable {host : Host} (sdk : Sdk)

/-- A transfer has dropped the role of a subject since it was last set. -/
def roleDropped (communityId : Bytes) (subject : Address)
    (history : List (machine host).Accepted) : Bool :=
  history.foldl
    (fun dropped entry =>
      if setsRole communityId subject entry.call.operation then false
      else dropped || dropsRole communityId subject entry.before entry.call.operation)
    false

theorem roleDropped_concat (communityId : Bytes) (subject : Address)
    (history : List (machine host).Accepted) (entry : (machine host).Accepted) :
    roleDropped communityId subject (history ++ [entry]) =
      if setsRole communityId subject entry.call.operation then false
      else roleDropped communityId subject history ||
        dropsRole communityId subject entry.before entry.call.operation := by
  rw [roleDropped, List.foldl_append, List.foldl_cons, List.foldl_nil, ← roleDropped]

/-! ### One call -/

/-- The communities table after the events of a call mirrors what the call stored. -/
theorem communities_step {env : Env} {operation : Operation} {state after : State}
    {events : List Event} (effect : Effect host env state operation after events) {db : Database}
    {records : List LogEvent} (logs : records.map LogEvent.event = events.map .communities)
    (mirrors : communityLink.Mirrors db.communities state.communities) :
    communityLink.Mirrors (records.foldl (applyEvent sdk) db).communities after.communities := by
  cases effect with
  | identityContractSet address authorized =>
    rw [List.map_eq_nil_iff.mp logs]
    exact mirrors
  | created creator id name policyHash policyUri transferDelayMs signer identified idBound
      delayBound authorized fresh =>
    obtain ⟨log, event, applied⟩ := foldl_applyEvent_singleton sdk db logs
    rw [applied, applyEvent, event]
    exact mirrors.put rfl
  | roleSet communityId actor subject wire role scope expiresAt device community signer decoded
      future known authorized ranked notOwner explicit manageable =>
    obtain ⟨log, event, applied⟩ := foldl_applyEvent_singleton sdk db logs
    rw [applied, applyEvent, event, writeRole_communities]
    simp only [applyCommunities, notify_frame Database.communities fun _ _ => rfl]
    exact mirrors.touch communityId fun row => rfl
  | policySet communityId actor policyHash policyUri device community signer known authorized
      ranked =>
    obtain ⟨log, event, applied⟩ := foldl_applyEvent_singleton sdk db logs
    rw [applied, applyEvent, event]
    exact mirrors.modify
      (fun view => { view with policyHash := policyHash, policyUri := policyUri })
      known (fun row => rfl) rfl
  | transferProposed communityId newOwner community signer different known authorized =>
    obtain ⟨log, event, applied⟩ := foldl_applyEvent_singleton sdk db logs
    rw [applied, applyEvent, event]
    exact mirrors.modify
      (fun view => { view with
        pendingOwner := some newOwner
        transferEffectiveAt := wrapAdd 64 env.now community.transferDelayMs })
      known (fun row => rfl) rfl
  | transferCancelled communityId community pending signer known authorized proposed =>
    obtain ⟨log, event, applied⟩ := foldl_applyEvent_singleton sdk db logs
    rw [applied, applyEvent, event]
    exact mirrors.modify (fun view => { view with pendingOwner := none, transferEffectiveAt := 0 })
      known (fun row => rfl) rfl
  | transferred communityId community newOwner known proposed elapsed =>
    obtain ⟨log, event, applied⟩ := foldl_applyEvent_singleton sdk db logs
    rw [applied, applyEvent, event]
    exact mirrors.modify
      (fun view => { view with
        owner := newOwner, pendingOwner := none, transferEffectiveAt := 0 })
      known (fun row => rfl) rfl
  | labelled communityId actor postId label reason device community signer postIdLength known
      authorized ranked =>
    obtain ⟨log, event, applied⟩ := foldl_applyEvent_singleton sdk db logs
    rw [applied, applyEvent, event]
    simp only [applyCommunities, notifyLabel_frame Database.communities fun _ _ => rfl]
    exact mirrors

/-! ### The roles of one pair -/

/-- A dropped role has a row and no record; every other role agrees. -/
def RoleTracked (db : Database) (state : State) (communityId : Bytes) (subject : Address)
    (dropped : Bool) : Prop :=
  if dropped then
    db.roles.get (communityId, subject) ≠ none ∧
      state.roles.get (roleKey communityId subject.val) = none
  else roleLink.Agrees db.roles state.roles (communityId, subject)

/-- The roles agree exactly when none was dropped. -/
theorem agrees_iff_of_roleTracked {db : Database} {state : State} {communityId : Bytes}
    {subject : Address} {dropped : Bool}
    (tracked : RoleTracked db state communityId subject dropped) :
    roleLink.Agrees db.roles state.roles (communityId, subject) ↔ dropped = false := by
  cases dropped with
  | false => exact iff_of_true tracked rfl
  | true =>
    refine iff_of_false (fun agree => tracked.1 ?_) (by decide)
    have agree : (db.roles.get (communityId, subject)).map roleLink.ofRow =
      (state.roles.get (roleKey communityId subject.val)).map roleLink.ofRecord := agree
    rw [tracked.2, Option.map_none, Option.map_eq_none_iff] at agree
    exact agree

/-- What happens to a pair depends on its row and its record alone. -/
theorem roleTracked_congr {db next : Database} {state after : State} {communityId : Bytes}
    {subject : Address} {dropped : Bool}
    (rows : next.roles.get (communityId, subject) = db.roles.get (communityId, subject))
    (records : after.roles.get (roleKey communityId subject.val) =
      state.roles.get (roleKey communityId subject.val))
    (tracked : RoleTracked db state communityId subject dropped) :
    RoleTracked next after communityId subject dropped := by
  cases dropped with
  | true => exact ⟨rows ▸ tracked.1, records.trans tracked.2⟩
  | false =>
    have agree : (db.roles.get (communityId, subject)).map roleLink.ofRow =
      (state.roles.get (roleKey communityId subject.val)).map roleLink.ofRecord := tracked
    rw [← rows, ← records] at agree
    exact agree

/-- A call that neither sets nor drops the role of a pair leaves it as it was. -/
theorem roleTracked_frame {db next : Database} {state after : State} {operation : Operation}
    {communityId : Bytes} {subject : Address} {dropped : Bool}
    (unset : setsRole communityId subject operation = false)
    (undropped : dropsRole communityId subject state operation = false)
    (rows : next.roles.get (communityId, subject) = db.roles.get (communityId, subject))
    (records : after.roles.get (roleKey communityId subject.val) =
      state.roles.get (roleKey communityId subject.val))
    (tracked : RoleTracked db state communityId subject dropped) :
    RoleTracked next after communityId subject
      (if setsRole communityId subject operation then false
        else dropped || dropsRole communityId subject state operation) := by
  rw [unset, undropped, Bool.or_false, if_neg (by decide)]
  exact roleTracked_congr rows records tracked

/-- Setting the role of a pair writes or deletes its record and its row alike. -/
theorem agrees_writeRole (db : Database) (state : State) (communityId : Bytes)
    (subject : Address) (role : CommunityRole) (scope : Bytes) (expiresAt : ℕ) (actor : Address)
    (now : ℕ) :
    roleLink.Agrees
      (setRoleRow db.roles communityId subject ⟨role, scope, expiresAt, actor, now⟩)
      (writeRole state communityId subject ⟨role, scope, expiresAt, actor, now⟩).roles
      (communityId, subject) := by
  unfold setRoleRow writeRole
  by_cases cleared : role = .none
  · rw [if_pos cleared, if_pos cleared]
    exact Correspondence.agrees_remove
  · rw [if_neg cleared, if_neg cleared]
    exact Correspondence.agrees_put rfl

/-- Setting the role of a pair leaves every other row. -/
theorem setRoleRow_other (roles : Store (Bytes × Address) RoleRow) {communityId other : Bytes}
    {subject account : Address} (row : RoleRow) (different : ¬(communityId = other ∧ subject = account)) :
    (setRoleRow roles communityId subject row).get (other, account) = roles.get (other, account) := by
  have distinct : (other, account) ≠ (communityId, subject) := by
    intro same
    rw [Prod.mk.injEq] at same
    exact different ⟨same.1.symm, same.2.symm⟩
  unfold setRoleRow
  split
  · rw [Store.get_remove, if_neg distinct]
  · rw [Store.get_put, if_neg distinct]

theorem dropsRole_transfer_eq_false {communityId other : Bytes} {subject : Address}
    {state : State} :
    dropsRole communityId subject state (.executeOwnerTransfer ⟨other⟩) = false ↔
      (other = communityId →
        (state.communities.get communityId).bind CommunityRecord.pendingOwner = some subject →
        state.roles.get (roleKey communityId subject.val) = none) := by
  simp only [dropsRole, Bool.and_eq_false_imp, beq_iff_eq, Store.has_eq_false, Bool.and_eq_true]
  exact ⟨fun drops same stored => drops ⟨same, stored⟩, fun drops both => drops both.1 both.2⟩

/-- A transfer to the subject of a pair drops its record, and its row stays. -/
theorem roleTracked_transferred {db next : Database} {state : State} {communityId : Bytes}
    {community moved : CommunityRecord} {newOwner : Address} {dropped : Bool}
    (rows : next.roles = db.roles)
    (known : state.communities.get communityId = some community)
    (proposed : community.pendingOwner = some newOwner)
    (tracked : RoleTracked db state communityId newOwner dropped) :
    RoleTracked next ((state.putCommunity communityId moved).removeRole communityId newOwner)
      communityId newOwner
      (dropped || dropsRole communityId newOwner state (.executeOwnerTransfer ⟨communityId⟩)) := by
  have removed : ((state.putCommunity communityId moved).removeRole communityId newOwner).roles.get
      (roleKey communityId newOwner.val) = none := by
    rw [State.removeRole, Store.get_remove, if_pos rfl]
  cases stored : state.roles.get (roleKey communityId newOwner.val) with
  | none =>
    rw [dropsRole_transfer_eq_false.mpr fun _ _ => stored, Bool.or_false]
    exact roleTracked_congr (by rw [rows]) (removed.trans stored.symm) tracked
  | some record =>
    have drops : dropsRole communityId newOwner state (.executeOwnerTransfer ⟨communityId⟩) =
        true := by
      simp [dropsRole, known, proposed, stored, Store.has]
    rw [drops, Bool.or_true, RoleTracked, if_pos rfl, rows]
    refine ⟨fun absent => ?_, removed⟩
    have agree : roleLink.Agrees db.roles state.roles (communityId, newOwner) := by
      cases dropped with
      | false => exact tracked
      | true => exact absurd (tracked.2.symm.trans stored) (by simp)
    have agree : (db.roles.get (communityId, newOwner)).map roleLink.ofRow =
      (state.roles.get (roleKey communityId newOwner.val)).map roleLink.ofRecord := agree
    rw [absent, stored] at agree
    exact absurd agree (by simp)

theorem roles_step {env : Env} {operation : Operation} {state after : State}
    {events : List Event} (effect : Effect host env state operation after events) {db : Database}
    {records : List LogEvent} (logs : records.map LogEvent.event = events.map .communities)
    (communityId : Bytes) (subject : Address) {dropped : Bool}
    (tracked : RoleTracked db state communityId subject dropped) :
    RoleTracked (records.foldl (applyEvent sdk) db) after communityId subject
      (if setsRole communityId subject operation then false
        else dropped || dropsRole communityId subject state operation) := by
  cases effect with
  | roleSet other actor account wire role scope expiresAt device community signer decoded future
      known authorized ranked notOwner explicit manageable =>
    obtain ⟨log, event, applied⟩ := foldl_applyEvent_singleton sdk db logs
    rw [applied, applyEvent, event]
    by_cases same : other = communityId ∧ account = subject
    · obtain ⟨rfl, rfl⟩ := same
      rw [if_pos (by simp [setsRole]), RoleTracked, if_neg (by decide)]
      simp only [applyCommunities, notify_frame Database.roles fun _ _ => rfl]
      exact agrees_writeRole db state other account role scope expiresAt actor env.now
    · have unset : setsRole communityId subject
          (.setRole ⟨other, actor.val, account.val, wire, scope, expiresAt, device⟩) = false := by
        simpa [setsRole, Subtype.ext_iff] using same
      refine roleTracked_frame unset rfl ?_ (writeRole_other _ same) tracked
      simp only [applyCommunities, notify_frame Database.roles fun _ _ => rfl]
      exact setRoleRow_other db.roles _ same
  | transferred other community newOwner known proposed elapsed =>
    obtain ⟨log, event, applied⟩ := foldl_applyEvent_singleton sdk db logs
    rw [applied, applyEvent, event]
    by_cases same : other = communityId ∧ newOwner = subject
    · obtain ⟨rfl, rfl⟩ := same
      exact roleTracked_transferred rfl known proposed tracked
    · have unaffected :
          dropsRole communityId subject state (.executeOwnerTransfer ⟨other⟩) = false := by
        rw [dropsRole_transfer_eq_false]
        rintro rfl stored
        rw [known, Option.bind_some, proposed] at stored
        exact absurd ⟨rfl, Option.some.inj stored⟩ same
      exact roleTracked_frame rfl unaffected rfl (removeRole_other _ same) tracked
  | labelled other actor postId label reason device community signer postIdLength known authorized
      ranked =>
    obtain ⟨log, event, applied⟩ := foldl_applyEvent_singleton sdk db logs
    rw [applied, applyEvent, event]
    refine roleTracked_frame rfl rfl ?_ rfl tracked
    simp only [applyCommunities, notifyLabel_frame Database.roles fun _ _ => rfl]
  | identityContractSet address authorized =>
    rw [List.map_eq_nil_iff.mp logs]
    exact roleTracked_frame rfl rfl rfl rfl tracked
  | created creator id name policyHash policyUri transferDelayMs signer identified idBound
      delayBound authorized fresh =>
    obtain ⟨log, event, applied⟩ := foldl_applyEvent_singleton sdk db logs
    rw [applied, applyEvent, event]
    exact roleTracked_frame rfl rfl rfl rfl tracked
  | policySet other actor policyHash policyUri device community signer known authorized ranked =>
    obtain ⟨log, event, applied⟩ := foldl_applyEvent_singleton sdk db logs
    rw [applied, applyEvent, event]
    exact roleTracked_frame rfl rfl rfl rfl tracked
  | transferProposed other newOwner community signer different known authorized =>
    obtain ⟨log, event, applied⟩ := foldl_applyEvent_singleton sdk db logs
    rw [applied, applyEvent, event]
    exact roleTracked_frame rfl rfl rfl rfl tracked
  | transferCancelled other community pending signer known authorized proposed =>
    obtain ⟨log, event, applied⟩ := foldl_applyEvent_singleton sdk db logs
    rw [applied, applyEvent, event]
    exact roleTracked_frame rfl rfl rfl rfl tracked

/-! ### Every run -/

/-- The tables mirror the contract: every community and every role agrees. -/
structure CommunitiesRefined (db : Database) (state : State) : Prop where
  communities : communityLink.Mirrors db.communities state.communities
  roles : roleLink.Mirrors db.roles state.roles

/-- After every run and every log of it, the communities agree, and the role of a pair agrees
exactly when no transfer to its subject has dropped a stored role since it was last set. -/
theorem communities_refined_iff (host : Host) (calls : List Call) (records : List LogEvent)
    (logs : (machine host).Logs (List.map ProtocolEvent.communities) LogEvent.event
      ((machine host).history empty calls) records) :
    communityLink.Mirrors (replayProjections sdk records).communities
        ((machine host).final empty calls).communities ∧
      (∀ communityId subject,
        roleLink.Agrees (replayProjections sdk records).roles
            ((machine host).final empty calls).roles (communityId, subject) ↔
          roleDropped communityId subject ((machine host).history empty calls) = false) ∧
      (CommunitiesRefined (replayProjections sdk records) ((machine host).final empty calls) ↔
        ∀ communityId subject,
          roleDropped communityId subject ((machine host).history empty calls) = false) := by
  have tracked := (machine host).projection_induction (List.map ProtocolEvent.communities)
    LogEvent.event (applyEvent sdk) empty .empty
    (fun history state db => communityLink.Mirrors db.communities state.communities ∧
      ∀ communityId subject,
        RoleTracked db state communityId subject (roleDropped communityId subject history))
    ⟨Correspondence.mirrors_empty, fun communityId subject => Correspondence.mirrors_empty _⟩
    (fun history entry db records tracked logs => by
      have effect := effect_of_entry entry
      refine ⟨communities_step sdk effect logs tracked.1, fun communityId subject => ?_⟩
      rw [roleDropped_concat]
      exact roles_step sdk effect logs communityId subject (tracked.2 communityId subject))
    calls records logs
  have exactly := fun communityId subject =>
    agrees_iff_of_roleTracked (tracked.2 communityId subject)
  refine ⟨tracked.1, exactly, ?_⟩
  constructor
  · intro refined communityId subject
    exact (exactly communityId subject).mp (refined.roles (communityId, subject))
  · intro kept
    exact ⟨tracked.1, fun pair => (exactly pair.1 pair.2).mpr (kept pair.1 pair.2)⟩

end Run

/-! ### A transfer to a member -/

/-- The owner makes an account a member and later transfers the community to it. -/
def transferRun : List Call :=
  let owner := Address.repeated 1
  let member := Address.repeated 2
  let env := Env.signedBy owner.val
  [⟨env 0, .setIdentityContract ⟨(Address.repeated 9).val⟩⟩,
    ⟨env 1, .createCommunity ⟨owner.val, [7], "birds", [], "", 10⟩⟩,
    ⟨env 2, .setRole ⟨[7], owner.val, member.val, 2, [], 0, []⟩⟩,
    ⟨env 3, .proposeOwnerTransfer ⟨[7], owner.val, member.val⟩⟩,
    ⟨env 13, .executeOwnerTransfer ⟨[7]⟩⟩]

/-- The log of that run. -/
def transferLog : List LogEvent :=
  let contract := machine ⟨[], [], id⟩
  logOf (contract.emitted (List.map ProtocolEvent.communities) (contract.history empty transferRun))

theorem communities_refined_iff_transferRun :
    ((machine ⟨[], [], id⟩).history empty transferRun).length = 5 ∧
      communityLink.Mirrors (replayProjections Sdk.standard transferLog).communities
        ((machine ⟨[], [], id⟩).final empty transferRun).communities ∧
      ¬ CommunitiesRefined (replayProjections Sdk.standard transferLog)
        ((machine ⟨[], [], id⟩).final empty transferRun) := by
  obtain ⟨communities, _, refined⟩ := communities_refined_iff Sdk.standard ⟨[], [], id⟩ transferRun
    transferLog (map_event_logOf _)
  refine ⟨by decide +kernel, communities, fun agree => ?_⟩
  have kept := refined.mp agree [7] (Address.repeated 2)
  exact absurd kept (by decide +kernel)

/-- The member's row outlives the transfer that drops its role. -/
theorem transferred_role_kept :
    (machine ⟨[], [], id⟩).Logs (List.map ProtocolEvent.communities) LogEvent.event
        ((machine ⟨[], [], id⟩).history empty transferRun) transferLog ∧
      ((machine ⟨[], [], id⟩).final empty transferRun).roles.get
        (roleKey [7] (Address.repeated 2).val) = none ∧
      (replayProjections Sdk.standard transferLog).roles.get ([7], Address.repeated 2) ≠ none ∧
      ¬ CommunitiesRefined (replayProjections Sdk.standard transferLog)
        ((machine ⟨[], [], id⟩).final empty transferRun) := by
  have dropped : ((machine ⟨[], [], id⟩).final empty transferRun).roles.get
      (roleKey [7] (Address.repeated 2).val) = none := by decide +kernel
  have kept : (replayProjections Sdk.standard transferLog).roles.get
      ([7], Address.repeated 2) ≠ none := by decide +kernel
  refine ⟨map_event_logOf _, dropped, kept, fun refined => kept ?_⟩
  have agree := refined.roles ([7], Address.repeated 2)
  have agree : ((replayProjections Sdk.standard transferLog).roles.get
      ([7], Address.repeated 2)).map roleLink.ofRow =
    (((machine ⟨[], [], id⟩).final empty transferRun).roles.get
      (roleKey [7] (Address.repeated 2).val)).map roleLink.ofRecord := agree
  rw [dropped, Option.map_none, Option.map_eq_none_iff] at agree
  exact agree

end OpenSocial.Indexer

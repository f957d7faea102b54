/-
This file proves that privileges in a community come from its owner and that its
owner changes only by a transfer the owner proposed long enough before.

An admin manages only accounts and roles below admin, so an admin role is written
by an owner, and it lasts until the next `set_role` for the same account or until
the account becomes the owner. The pending transfer of a community is explained in
the same way by the proposal that wrote it.
-/

import OpenSocial.Communities.Effects
import OpenSocial.Library.Lasting

namespace OpenSocial.Communities

open Library Library.Word

variable {host : Host}

/-! ### What the store holds -/

/-- Every community is stored under its id, with a delay within the limit. -/
structure CommunitiesKept (state : State) : Prop where
  identified : ∀ id community, state.communities.get id = some community → community.id = id
  delayed : ∀ id community, state.communities.get id = some community →
    community.transferDelayMs ≤ TRANSFER_DELAY_MAX_MS

/-- Every role record is of a community and of an account that does not own it, and is no owner
role. -/
def RolesKept (state : State) : Prop :=
  ∀ key record, state.roles.get key = some record → record.role ≠ .owner ∧
    ∃ id, ∃ subject : Address, ∃ community, key = roleKey id subject.val ∧
      state.communities.get id = some community ∧ community.owner ≠ subject

section Step

variable {env : Env} {operation : Operation} {state after : State} {events : List Event}

/-- A record written over one with the same id and delay. -/
theorem communitiesKept_putCommunity {id : Bytes} {record : CommunityRecord}
    (kept : CommunitiesKept state) (identified : record.id = id)
    (delayed : record.transferDelayMs ≤ TRANSFER_DELAY_MAX_MS) :
    CommunitiesKept (state.putCommunity id record) := by
  refine ⟨fun other community known => ?_, fun other community known => ?_⟩
  · rw [State.putCommunity, Store.get_put] at known
    split at known
    · next same => rw [← Option.some.inj known, identified, same]
    · exact kept.identified other community known
  · rw [State.putCommunity, Store.get_put] at known
    split at known
    · rw [← Option.some.inj known]
      exact delayed
    · exact kept.delayed other community known

/-- What `set_role` leaves under a key. -/
theorem writeRole_get (id : Bytes) (subject : Address) (record : RoleRecord) (key : Bytes) :
    (writeRole state id subject record).roles.get key =
      if key = roleKey id subject.val then
        if record.role = .none then none else some record
      else state.roles.get key := by
  unfold writeRole
  by_cases absent : record.role = .none
  · rw [if_pos absent, if_pos absent, State.removeRole, Store.get_remove]
  · rw [if_neg absent, if_neg absent, State.putRole, Store.get_put]

theorem communitiesKept_step (effect : Effect host env state operation after events)
    (kept : CommunitiesKept state) : CommunitiesKept after := by
  cases effect with
  | identityContractSet => exact ⟨kept.identified, kept.delayed⟩
  | created creator id name policyHash policyUri transferDelayMs signer identified idBound
      delayBound => exact communitiesKept_putCommunity kept rfl delayBound
  | roleSet communityId actor subject wire role scope expiresAt device community signer decoded
      future known =>
    refine ⟨fun id found => ?_, fun id found => ?_⟩
    · rw [writeRole_communities]
      exact kept.identified id found
    · rw [writeRole_communities]
      exact kept.delayed id found
  | policySet communityId actor policyHash policyUri device community signer known =>
    exact communitiesKept_putCommunity kept (kept.identified communityId community known)
      (kept.delayed communityId community known)
  | transferProposed communityId newOwner community signer different known =>
    exact communitiesKept_putCommunity kept (kept.identified communityId community known)
      (kept.delayed communityId community known)
  | transferCancelled communityId community pending signer known =>
    exact communitiesKept_putCommunity kept (kept.identified communityId community known)
      (kept.delayed communityId community known)
  | transferred communityId community newOwner known =>
    have put : CommunitiesKept (state.putCommunity communityId { community with
        owner := newOwner, pendingOwner := none, transferEffectiveAt := 0, updatedAt := env.now }) :=
      communitiesKept_putCommunity kept (kept.identified communityId community known)
        (kept.delayed communityId community known)
    exact ⟨put.identified, put.delayed⟩
  | labelled => exact kept

/-- Writing a community over one with the same owner keeps the roles. -/
theorem rolesKept_putCommunity {id : Bytes} {record : CommunityRecord} (kept : RolesKept state)
    (same : ∀ community, state.communities.get id = some community →
      record.owner = community.owner) : RolesKept (state.putCommunity id record) := by
  intro key role stored
  obtain ⟨explicit, other, subject, community, key_eq, known, different⟩ := kept key role stored
  refine ⟨explicit, other, subject, ?_⟩
  rw [State.putCommunity, Store.get_put]
  by_cases about : other = id
  · refine ⟨record, key_eq, if_pos about, ?_⟩
    rw [same community (about ▸ known)]
    exact different
  · exact ⟨community, key_eq, (if_neg about).trans known, different⟩

theorem rolesKept_step (effect : Effect host env state operation after events)
    (kept : RolesKept state) : RolesKept after := by
  cases effect with
  | identityContractSet => exact kept
  | created creator id name policyHash policyUri transferDelayMs signer identified idBound
      delayBound authorized fresh =>
    refine rolesKept_putCommunity kept fun community known => ?_
    rw [fresh] at known
    cases known
  | roleSet communityId actor subject wire role scope expiresAt device community signer decoded
      future known authorized ranked notOwner explicit =>
    intro key record stored
    rw [writeRole_communities]
    rw [writeRole_get] at stored
    split at stored
    · next same =>
      split at stored
      · cases stored
      · rw [← Option.some.inj stored]
        exact ⟨explicit, communityId, subject, community, same, known, notOwner⟩
    · exact kept key record stored
  | policySet communityId actor policyHash policyUri device community signer known =>
    refine rolesKept_putCommunity kept fun stored present => ?_
    rw [Option.some.inj (present.symm.trans known)]
  | transferProposed communityId newOwner community signer different known =>
    refine rolesKept_putCommunity kept fun stored present => ?_
    rw [Option.some.inj (present.symm.trans known)]
  | transferCancelled communityId community pending signer known =>
    refine rolesKept_putCommunity kept fun stored present => ?_
    rw [Option.some.inj (present.symm.trans known)]
  | transferred communityId community newOwner known =>
    intro key record stored
    rw [State.removeRole, Store.get_remove] at stored
    split at stored
    · cases stored
    next other =>
    obtain ⟨explicit, id, subject, old, key_eq, oldKnown, different⟩ := kept key record stored
    refine ⟨explicit, id, subject, ?_⟩
    show ∃ updated, _ ∧ (state.communities.put communityId _).get id = some updated ∧ _
    rw [Store.get_put]
    by_cases about : id = communityId
    · refine ⟨_, key_eq, if_pos about, fun same => other ?_⟩
      rw [key_eq, about, ← same]
    · exact ⟨old, key_eq, (if_neg about).trans oldKnown, different⟩
  | labelled => exact kept

/-- An account with a role record is not the owner. -/
theorem RolesKept.record {id : Bytes} {subject : Address} {record : RoleRecord}
    {community : CommunityRecord} (kept : RolesKept state)
    (stored : state.roles.get (roleKey id subject.val) = some record)
    (known : state.communities.get id = some community) :
    record.role ≠ .owner ∧ community.owner ≠ subject := by
  obtain ⟨explicit, other, account, found, key_eq, present, different⟩ := kept _ record stored
  obtain ⟨rfl, rfl⟩ := roleKey_inj.mp key_eq
  rw [Option.some.inj (present.symm.trans known)] at different
  exact ⟨explicit, different⟩

end Step

/-! ### Ranks -/

theorem admin_le_rank (role : CommunityRole) :
    RANK_ADMIN ≤ rank role ↔ role = .admin ∨ role = .owner := by
  cases role with
  | admin => simp [rank, RANK_ADMIN, CommunityRole.toWire]
  | owner => simp [rank, RANK_ADMIN, CommunityRole.toWire]
  | _ => simp [rank, RANK_ADMIN, RANK_NONE, CommunityRole.toWire]

theorem owner_le_rank (role : CommunityRole) : RANK_OWNER ≤ rank role ↔ role = .owner := by
  cases role with
  | owner => simp [rank, RANK_OWNER, CommunityRole.toWire]
  | _ => simp [rank, RANK_OWNER, RANK_NONE, CommunityRole.toWire]

/-- The effective role of an account that is not the owner is that of its record, unless the record
has expired. -/
theorem effectiveRole_eq {state : State} {community : CommunityRecord} {account : Address}
    {now : ℕ} {role : CommunityRole} (other : community.owner ≠ account)
    (effective : effectiveRole state community account now = role) (privileged : role ≠ .none) :
    ∃ record, state.roles.get (roleKey community.id account.val) = some record ∧
      record.role = role ∧ (record.expiresAt = 0 ∨ now < record.expiresAt) := by
  rw [effectiveRole, if_neg other] at effective
  cases stored : state.roles.get (roleKey community.id account.val) with
  | none =>
    rw [stored] at effective
    exact absurd effective.symm privileged
  | some record =>
    simp only [stored] at effective
    split at effective
    · exact absurd effective.symm privileged
    · next valid => exact ⟨record, rfl, effective, by omega⟩

/-- Only the owner ranks as owner. -/
theorem owner_of_rank {state : State} {community : CommunityRecord} {account : Address} {now : ℕ}
    (identified : state.communities.get community.id = some community) (roles : RolesKept state)
    (ranked : RANK_OWNER ≤ effectiveRank state community account now) :
    community.owner = account := by
  by_contra other
  have owner := (owner_le_rank _).mp ranked
  obtain ⟨record, stored, role, _⟩ := effectiveRole_eq other owner (by simp)
  exact (roles.record stored identified).1 role

/-- Who does what an account below the owner may not do is the owner. -/
theorem owner_of_refused {state : State} {community : CommunityRecord} {account : Address} {now : ℕ}
    {limits : Prop} (identified : state.communities.get community.id = some community)
    (roles : RolesKept state)
    (limited : effectiveRank state community account now < RANK_OWNER → limits)
    (refused : ¬ limits) : community.owner = account := by
  have outranks : RANK_OWNER ≤ effectiveRank state community account now := by
    by_contra below
    exact refused (limited (Nat.lt_of_not_le below))
  exact owner_of_rank identified roles outranks

/-! ### Admin roles in a history -/

/-- The owner stored for a community. -/
def ownerOf (state : State) (id : Bytes) : Option Address :=
  (state.communities.get id).map CommunityRecord.owner

/-- The owner of a community makes an account an admin until this time. -/
def GrantsAdmin (id : Bytes) (subject : Address) (expiresAt : ℕ)
    (entry : (machine host).Accepted) : Prop :=
  ∃ owner : Address, ownerOf entry.before id = some owner ∧ ∃ wire scope device,
    CommunityRole.ofWire wire = some .admin ∧ entry.call.operation =
      .setRole ⟨id, owner.val, subject.val, wire, scope, expiresAt, device⟩

/-- Whether an accepted call sets the role of an account in a community, or drops it because the
account becomes the owner. -/
def rewritesRole (id : Bytes) (subject : Address) (entry : (machine host).Accepted) : Bool :=
  match entry.call.operation with
  | .setRole args => args.communityId == id && args.subject == subject.val
  | .executeOwnerTransfer args =>
    args.communityId == id && (entry.before.communities.get id).bind CommunityRecord.pendingOwner ==
      some subject
  | _ => false

/-- The owner of that time granted the admin role, and nothing set or dropped the role since. -/
def AdminSince (id : Bytes) (subject : Address) (expiresAt : ℕ)
    (history : List (machine host).Accepted) : Prop :=
  LastsSince (fun _ => GrantsAdmin id subject expiresAt)
    (fun entry => rewritesRole id subject entry = false) history

/-- Every stored admin role was granted by an owner. -/
def AdminsGranted (history : List (machine host).Accepted) (state : State) : Prop :=
  ∀ id (subject : Address) record, state.roles.get (roleKey id subject.val) = some record →
    record.role = .admin → AdminSince id subject record.expiresAt history

/-- A call that neither sets nor drops a role leaves it. -/
theorem role_kept {id : Bytes} {subject : Address} (entry : (machine host).Accepted)
    (quiet : rewritesRole id subject entry = false) :
    entry.after.roles.get (roleKey id subject.val) =
      entry.before.roles.get (roleKey id subject.val) := by
  have effect := effect_of_entry entry
  unfold rewritesRole at quiet
  generalize entry.call.operation = operation at effect quiet
  generalize entry.after = after at effect ⊢
  generalize entry.output = output at effect
  cases effect with
  | roleSet communityId actor other wire role scope expiresAt device community =>
    refine writeRole_other _ fun same => ?_
    rw [same.1, same.2] at quiet
    simp at quiet
  | transferred communityId community newOwner known proposed =>
    refine removeRole_other _ fun same => ?_
    obtain ⟨rfl, rfl⟩ := same
    rw [known, Option.bind_some, proposed] at quiet
    simp at quiet
  | _ => rfl

/-- Every accepted call keeps every admin role granted by an owner. -/
theorem adminsGranted_step {history : List (machine host).Accepted}
    (entry : (machine host).Accepted) (communities : CommunitiesKept entry.before)
    (roles : RolesKept entry.before) (granted : AdminsGranted history entry.before) :
    AdminsGranted (history ++ [entry]) entry.after := by
  intro id subject record stored admin
  by_cases quiet : rewritesRole id subject entry = false
  · rw [role_kept entry quiet] at stored
    exact (granted id subject record stored admin).continues quiet
  · rw [Bool.not_eq_false] at quiet
    have effect := effect_of_entry entry
    unfold rewritesRole at quiet
    generalize operation_eq : entry.call.operation = operation at effect quiet
    generalize entry.after = after at effect stored
    generalize entry.output = output at effect
    cases effect with
    | roleSet communityId actor other wire role scope expiresAt device community signer decoded
        future known authorized ranked notOwner explicit manageable =>
      simp only [Bool.and_eq_true, beq_iff_eq, Subtype.coe_inj] at quiet
      obtain ⟨rfl, rfl⟩ := quiet
      rw [writeRole_get, if_pos rfl] at stored
      split at stored
      · cases stored
      next present =>
      have record_eq := Option.some.inj stored
      subst record_eq
      obtain rfl : role = .admin := admin
      have identified := communities.identified communityId community known
      have owns : community.owner = actor :=
        owner_of_refused (identified ▸ known) roles manageable fun limits =>
          absurd limits.1 (by simp [rank, RANK_ADMIN, CommunityRole.toWire])
      subst owns
      have owned : ownerOf entry.before communityId = some community.owner := by
        rw [ownerOf, known, Option.map_some]
      exact LastsSince.begins
        ⟨community.owner, owned, wire, scope, device, decoded, operation_eq⟩
    | transferred communityId community newOwner known proposed =>
      simp only [Bool.and_eq_true, beq_iff_eq] at quiet
      obtain ⟨rfl, takes⟩ := quiet
      rw [known, Option.bind_some, proposed] at takes
      rw [← Option.some.inj takes, State.removeRole, Store.get_remove, if_pos rfl] at stored
      cases stored
    | _ => cases quiet

/-! ### Transfers in a history -/

/-- The owner of a community proposes a new one, to be due no sooner than the delay. -/
structure ProposesTransfer (id : Bytes) (owner newOwner : Address) (delay due : ℕ)
    (entry : (machine host).Accepted) : Prop where
  proposing : entry.call.operation = .proposeOwnerTransfer ⟨id, owner.val, newOwner.val⟩
  owned : ownerOf entry.before id = some owner
  authorized : ∃ signer, Actor.requireAuthorized entry.call.env (identityContract entry.before)
    owner.val [] 0 = .ok signer
  delayed : entry.call.env.now + delay ≤ due

/-- Whether an accepted call proposes, cancels or executes a transfer of a community. -/
def movesTransfer (id : Bytes) (entry : (machine host).Accepted) : Bool :=
  match entry.call.operation with
  | .proposeOwnerTransfer args => args.communityId == id
  | .cancelOwnerTransfer args => args.communityId == id
  | .executeOwnerTransfer args => args.communityId == id
  | _ => false

/-- The owner proposed the new one, and no transfer of the community was proposed, cancelled or
executed since. -/
def ProposedSince (id : Bytes) (owner newOwner : Address) (delay due : ℕ)
    (history : List (machine host).Accepted) : Prop :=
  LastsSince (fun _ => ProposesTransfer id owner newOwner delay due)
    (fun entry => movesTransfer id entry = false) history

/-- Every pending transfer was proposed by the present owner. -/
def TransfersProposed (history : List (machine host).Accepted) (state : State) : Prop :=
  ∀ id community newOwner, state.communities.get id = some community →
    community.pendingOwner = some newOwner →
    ProposedSince id community.owner newOwner community.transferDelayMs
      community.transferEffectiveAt history

/-- What a transfer depends on in a community. -/
def transferOf (community : CommunityRecord) : Address × Option Address × ℕ × ℕ :=
  (community.owner, community.pendingOwner, community.transferDelayMs,
    community.transferEffectiveAt)

/-- A call that moves no transfer of a community leaves its owner and its pending transfer, or
creates it without one. -/
theorem transfer_kept {id : Bytes} (entry : (machine host).Accepted)
    (quiet : movesTransfer id entry = false) {updated : CommunityRecord}
    (known : entry.after.communities.get id = some updated) :
    (∃ community, entry.before.communities.get id = some community ∧
      transferOf community = transferOf updated) ∨
    (entry.before.communities.get id = none ∧ updated.pendingOwner = none) := by
  have effect := effect_of_entry entry
  unfold movesTransfer at quiet
  generalize entry.call.operation = operation at effect quiet
  generalize entry.after = after at effect known
  generalize entry.output = output at effect
  cases effect with
  | identityContractSet => exact .inl ⟨updated, known, rfl⟩
  | created creator other name policyHash policyUri transferDelayMs signer identified idBound
      delayBound authorized fresh =>
    rw [State.putCommunity, Store.get_put] at known
    split at known
    · next same =>
      rw [same, ← Option.some.inj known]
      exact .inr ⟨fresh, rfl⟩
    · exact .inl ⟨updated, known, rfl⟩
  | roleSet =>
    rw [writeRole_communities] at known
    exact .inl ⟨updated, known, rfl⟩
  | policySet other actor policyHash policyUri device community signer present =>
    rw [State.putCommunity, Store.get_put] at known
    split at known
    · next same =>
      rw [same, ← Option.some.inj known]
      exact .inl ⟨community, present, rfl⟩
    · exact .inl ⟨updated, known, rfl⟩
  | transferProposed other =>
    rw [State.putCommunity, Store.get_put, if_neg (Ne.symm (beq_eq_false_iff_ne.mp quiet))] at known
    exact .inl ⟨updated, known, rfl⟩
  | transferCancelled other =>
    rw [State.putCommunity, Store.get_put, if_neg (Ne.symm (beq_eq_false_iff_ne.mp quiet))] at known
    exact .inl ⟨updated, known, rfl⟩
  | transferred other =>
    have known : (entry.before.communities.put other _).get id = some updated := known
    rw [Store.get_put, if_neg (Ne.symm (beq_eq_false_iff_ne.mp quiet))] at known
    exact .inl ⟨updated, known, rfl⟩
  | labelled => exact .inl ⟨updated, known, rfl⟩

/-- Every accepted call keeps every pending transfer proposed by the present owner. -/
theorem transfersProposed_step {history : List (machine host).Accepted}
    (entry : (machine host).Accepted) (early : entry.call.env.now < 2 ^ 63)
    (communities : CommunitiesKept entry.before)
    (proposed : TransfersProposed history entry.before) :
    TransfersProposed (history ++ [entry]) entry.after := by
  intro id updated newOwner known pending
  by_cases quiet : movesTransfer id entry = false
  · rcases transfer_kept entry quiet known with ⟨community, present, same⟩ | ⟨_, none⟩
    · simp only [transferOf, Prod.mk.injEq] at same
      obtain ⟨owner, pendingOwner, delay, due⟩ := same
      rw [← owner, ← delay, ← due]
      exact (proposed id community newOwner present (pendingOwner.trans pending)).continues quiet
    · exact absurd (none.symm.trans pending) (by simp)
  · rw [Bool.not_eq_false] at quiet
    have effect := effect_of_entry entry
    unfold movesTransfer at quiet
    generalize operation_eq : entry.call.operation = operation at effect quiet
    generalize entry.after = after at effect known
    generalize entry.output = output at effect
    cases effect with
    | transferProposed other proposedOwner community signer different present authorized =>
      obtain rfl : other = id := beq_iff_eq.mp quiet
      rw [State.putCommunity, Store.get_put, if_pos rfl] at known
      rw [← Option.some.inj known] at pending ⊢
      obtain rfl : proposedOwner = newOwner := Option.some.inj pending
      have bounded := communities.delayed other community present
      have owned : ownerOf entry.before other = some community.owner := by
        rw [ownerOf, present, Option.map_some]
      refine LastsSince.begins ⟨operation_eq, owned, ⟨signer, authorized⟩, ?_⟩
      simp only [TRANSFER_DELAY_MAX_MS] at bounded
      rw [wrapAdd_of_lt (by omega)]
    | transferCancelled other =>
      obtain rfl : other = id := beq_iff_eq.mp quiet
      rw [State.putCommunity, Store.get_put, if_pos rfl] at known
      rw [← Option.some.inj known] at pending
      cases pending
    | transferred other =>
      obtain rfl : other = id := beq_iff_eq.mp quiet
      have known : (entry.before.communities.put other _).get other = some updated := known
      rw [Store.get_put, if_pos rfl] at known
      rw [← Option.some.inj known] at pending
      cases pending
    | _ => cases quiet

/-! ### Every run -/

/-- What every run keeps. -/
structure PrivilegesTracked (history : List (machine host).Accepted) (state : State) : Prop where
  communities : CommunitiesKept state
  roles : RolesKept state
  admins : AdminsGranted history state
  transfers : TransfersProposed history state

theorem privilegesTracked_run (host : Host) (calls : List Call) (early : ∀ call ∈ calls, call.env.now < 2 ^ 63) :
    PrivilegesTracked ((machine host).history (machine host).initial calls)
      ((machine host).final (machine host).initial calls) := by
  refine Machine.invariant_of_faithful PrivilegesTracked (fun entry => entry.call.env.now < 2 ^ 63)
    ⟨⟨?_, ?_⟩, ?_, ?_, ?_⟩ (fun history entry tracked soon => ?_) calls fun entry member =>
      early entry.call ((machine host).mem_history_call member)
  · intro id community known
    exact absurd ((Store.get_empty id).symm.trans known) (by simp)
  · intro id community known
    exact absurd ((Store.get_empty id).symm.trans known) (by simp)
  · intro key record stored
    exact absurd ((Store.get_empty key).symm.trans stored) (by simp)
  · intro id subject record stored
    exact absurd ((Store.get_empty _).symm.trans stored) (by simp)
  · intro id community newOwner known
    exact absurd ((Store.get_empty id).symm.trans known) (by simp)
  · exact ⟨communitiesKept_step (effect_of_entry entry) tracked.communities,
      rolesKept_step (effect_of_entry entry) tracked.roles,
      adminsGranted_step entry tracked.communities tracked.roles tracked.admins,
      transfersProposed_step entry soon tracked.communities tracked.transfers⟩

/-- The invariants hold before every accepted call of a run. -/
theorem privilegesTracked_before {calls : List Call}
    (early : ∀ call ∈ calls, call.env.now < 2 ^ 63) {earlier later : List (machine host).Accepted}
    {entry : (machine host).Accepted}
    (split : (machine host).history (machine host).initial calls = earlier ++ entry :: later) :
    PrivilegesTracked earlier entry.before := by
  obtain ⟨prior, post, calls_eq, history_eq, final_eq⟩ := (machine host).history_split split
  rw [← history_eq, ← final_eq]
  refine privilegesTracked_run host prior fun call member => early call ?_
  rw [calls_eq]
  exact List.mem_append_left _ member

/-- An owner changes only when a transfer is executed. -/
theorem executed_of_owner_changed (entry : (machine host).Accepted) {id : Bytes} {owner : Address}
    (owned : ownerOf entry.before id = some owner) (changed : ownerOf entry.after id ≠ some owner) :
    entry.call.operation = .executeOwnerTransfer ⟨id⟩ ∧ ∃ community newOwner,
      entry.before.communities.get id = some community ∧
      community.pendingOwner = some newOwner ∧
      community.transferEffectiveAt ≤ entry.call.env.now ∧
      ownerOf entry.after id = some newOwner := by
  have effect := effect_of_entry entry
  generalize entry.call.operation = operation at effect ⊢
  generalize entry.after = after at effect changed ⊢
  generalize entry.output = output at effect
  have same : ∀ {other : Bytes} {community updated : CommunityRecord},
      entry.before.communities.get other = some community → updated.owner = community.owner →
      ownerOf (entry.before.putCommunity other updated) id = ownerOf entry.before id := by
    intro other community updated known kept
    rw [ownerOf, State.putCommunity, Store.get_put]
    split
    · next about => rw [about, ownerOf, known, Option.map_some, Option.map_some, kept]
    · rfl
  cases effect with
  | identityContractSet => exact absurd owned changed
  | created creator other name policyHash policyUri transferDelayMs signer identified idBound
      delayBound authorized fresh =>
    rw [ownerOf, State.putCommunity, Store.get_put, if_neg] at changed
    · exact absurd owned changed
    · intro about
      rw [ownerOf, about, fresh] at owned
      cases owned
  | roleSet =>
    rw [ownerOf, writeRole_communities] at changed
    exact absurd owned changed
  | policySet other actor policyHash policyUri device community signer known =>
    refine absurd ((same known ?_).trans owned) changed
    rfl
  | transferProposed other newOwner community signer different known =>
    refine absurd ((same known ?_).trans owned) changed
    rfl
  | transferCancelled other community pending signer known =>
    refine absurd ((same known ?_).trans owned) changed
    rfl
  | transferred other community newOwner known proposed elapsed =>
    have after_eq : ∀ asked, ownerOf ((entry.before.putCommunity other { community with
        owner := newOwner, pendingOwner := none, transferEffectiveAt := 0,
        updatedAt := entry.call.env.now }).removeRole other newOwner) asked =
          if asked = other then some newOwner else ownerOf entry.before asked := by
      intro asked
      show ((entry.before.communities.put other _).get asked).map _ = _
      rw [Store.get_put]
      split
      · rfl
      · rfl
    rw [after_eq] at changed ⊢
    by_cases about : id = other
    · subst about
      exact ⟨rfl, community, newOwner, known, proposed, elapsed, if_pos rfl⟩
    · rw [if_neg about] at changed
      exact absurd owned changed
  | labelled => exact absurd owned changed

/-- An effective role depends on the owner, the id and the role record. -/
theorem effectiveRole_congr {state after : State} {community updated : CommunityRecord}
    {account : Address} (owner : updated.owner = community.owner) (id : updated.id = community.id)
    (record : after.roles.get (roleKey community.id account.val) =
      state.roles.get (roleKey community.id account.val)) (now : ℕ) :
    effectiveRole after updated account now = effectiveRole state community account now := by
  rw [effectiveRole, effectiveRole, owner, id, record]

/-- The role of an owner or of an effective admin changes only by a call of the owner. -/
theorem owner_of_role_changed (entry : (machine host).Accepted)
    (communities : CommunitiesKept entry.before) (roles : RolesKept entry.before) {id : Bytes}
    {community updated : CommunityRecord} {account : Address} {now : ℕ}
    (known : entry.before.communities.get id = some community)
    (present : entry.after.communities.get id = some updated)
    (ranked : RANK_ADMIN ≤ effectiveRank entry.before community account entry.call.env.now)
    (notExecuted : entry.call.operation ≠ .executeOwnerTransfer ⟨id⟩)
    (changed : effectiveRole entry.after updated account now ≠
      effectiveRole entry.before community account now) :
    community.owner ≠ account ∧ ∃ args, entry.call.operation = .setRole args ∧
      args.communityId = id ∧ args.actor = community.owner.val ∧ args.subject = account.val := by
  have effect := effect_of_entry entry
  have identified := communities.identified id community known
  generalize entry.call.operation = operation at effect notExecuted ⊢
  generalize entry.after = after at effect present changed
  generalize entry.output = output at effect
  -- A community written over one with the same owner and id has the same roles.
  have unchanged : ∀ {other : Bytes} {stored record : CommunityRecord},
      entry.before.communities.get other = some stored → record.owner = stored.owner →
      record.id = stored.id → (entry.before.communities.put other record).get id = some updated →
      effectiveRole (entry.before.putCommunity other record) updated account now =
        effectiveRole entry.before community account now := by
    intro other stored record stored_eq owner same put
    rw [Store.get_put] at put
    split at put
    · next about =>
      rw [about, stored_eq] at known
      rw [← Option.some.inj put, ← Option.some.inj known]
      exact effectiveRole_congr owner same rfl now
    · rw [Option.some.inj (put.symm.trans known)]
      exact effectiveRole_congr rfl rfl rfl now
  cases effect with
  | identityContractSet =>
    have same : updated = community := Option.some.inj (present.symm.trans known)
    rw [same] at changed
    exact absurd (effectiveRole_congr rfl rfl rfl now) changed
  | created creator other name policyHash policyUri transferDelayMs signer identity idBound
      delayBound authorized fresh =>
    rw [State.putCommunity, Store.get_put, if_neg] at present
    · have same : updated = community := Option.some.inj (present.symm.trans known)
      rw [same] at changed
      exact absurd (effectiveRole_congr rfl rfl rfl now) changed
    · intro about
      rw [about, fresh] at known
      cases known
  | roleSet communityId actor subject wire role scope expiresAt device found signer decoded future
      stored authorized rankedActor notOwner explicit manageable =>
    rw [writeRole_communities] at present
    have same : updated = community := Option.some.inj (present.symm.trans known)
    rw [same] at changed
    by_cases about : communityId = id ∧ subject = account
    · obtain ⟨rfl, rfl⟩ := about
      have found_eq : found = community := Option.some.inj (stored.symm.trans known)
      subst found_eq
      have owns : found.owner = actor :=
        owner_of_refused (identified.symm ▸ stored) roles manageable fun limits =>
          absurd limits.2 (Nat.not_lt.mpr ranked)
      exact ⟨notOwner, _, rfl, rfl, congrArg Subtype.val owns.symm, rfl⟩
    · refine absurd (effectiveRole_congr rfl rfl ?_ now) changed
      rw [identified]
      exact writeRole_other _ about
  | policySet other actor policyHash policyUri device found signer stored =>
    refine absurd (unchanged stored ?_ ?_ present) changed
    · rfl
    · rfl
  | transferProposed other newOwner found signer different stored =>
    refine absurd (unchanged stored ?_ ?_ present) changed
    · rfl
    · rfl
  | transferCancelled other found pending signer stored =>
    refine absurd (unchanged stored ?_ ?_ present) changed
    · rfl
    · rfl
  | transferred other found newOwner stored =>
    have different : id ≠ other := fun about => notExecuted (by rw [about])
    have present : (entry.before.communities.put other _).get id = some updated := present
    rw [Store.get_put, if_neg different] at present
    have same : updated = community := Option.some.inj (present.symm.trans known)
    rw [same] at changed
    refine absurd (effectiveRole_congr rfl rfl ?_ now) changed
    rw [identified]
    exact removeRole_other _ fun about => different about.1.symm
  | labelled =>
    have same : updated = community := Option.some.inj (present.symm.trans known)
    rw [same] at changed
    exact absurd rfl changed

/-- No role record is an owner role or of the owner; an account that does not own a community ranks
as admin only by a grant of an owner that has neither expired nor been set again or dropped; only
the owner changes the role of the owner or of an effective admin; and the owner changes only when a
transfer is executed that the then owner proposed at least the delay before, with none proposed,
cancelled or executed since. -/
theorem community_privileges (host : Host) (calls : List Call)
    (early : ∀ call ∈ calls, call.env.now < 2 ^ 63) :
    (∀ key record, ((machine host).final (machine host).initial calls).roles.get key = some record →
      record.role ≠ .owner ∧ ∀ id community,
        ((machine host).final (machine host).initial calls).communities.get id = some community →
        key ≠ roleKey id community.owner.val) ∧
    (∀ id community account now,
      ((machine host).final (machine host).initial calls).communities.get id = some community →
      community.owner ≠ account →
      RANK_ADMIN ≤ effectiveRank ((machine host).final (machine host).initial calls) community
        account now →
      ∃ expiresAt, (expiresAt = 0 ∨ now < expiresAt) ∧
        AdminSince id account expiresAt ((machine host).history (machine host).initial calls)) ∧
    (∀ earlier entry later,
      (machine host).history (machine host).initial calls = earlier ++ entry :: later →
      ∀ id community updated account now, entry.before.communities.get id = some community →
        entry.after.communities.get id = some updated →
        RANK_ADMIN ≤ effectiveRank entry.before community account entry.call.env.now →
        entry.call.operation ≠ .executeOwnerTransfer ⟨id⟩ →
        effectiveRole entry.after updated account now ≠
          effectiveRole entry.before community account now →
        community.owner ≠ account ∧ ∃ args, entry.call.operation = .setRole args ∧
          args.communityId = id ∧ args.actor = community.owner.val ∧
          args.subject = account.val) ∧
    ∀ earlier entry later,
      (machine host).history (machine host).initial calls = earlier ++ entry :: later →
      ∀ id owner, ownerOf entry.before id = some owner → ownerOf entry.after id ≠ some owner →
        entry.call.operation = .executeOwnerTransfer ⟨id⟩ ∧ ∃ community newOwner,
          entry.before.communities.get id = some community ∧
          ownerOf entry.after id = some newOwner ∧
          ProposedSince id owner newOwner community.transferDelayMs entry.call.env.now earlier := by
  refine ⟨fun key record stored => ?_, fun id community account now known other ranked => ?_,
    fun earlier entry later split id community updated account now known present ranked notExecuted
      changed => ?_,
    fun earlier entry later split id owner owned changed => ?_⟩
  · have roles := (privilegesTracked_run host calls early).roles
    refine ⟨(roles key record stored).1, fun id community known same => ?_⟩
    rw [same] at stored
    exact (roles.record stored known).2 rfl
  · have tracked := privilegesTracked_run host calls early
    have identified := tracked.communities.identified id community known
    rcases (admin_le_rank _).mp ranked with admin | owner
    · obtain ⟨record, stored, role, valid⟩ := effectiveRole_eq other admin (by simp)
      rw [identified] at stored
      exact ⟨record.expiresAt, valid, tracked.admins id account record stored role⟩
    · exact absurd (owner_of_rank (identified ▸ known) tracked.roles
        ((owner_le_rank _).mpr owner)) other
  · have tracked := privilegesTracked_before early split
    exact owner_of_role_changed entry tracked.communities tracked.roles known present ranked
      notExecuted changed
  · have tracked := privilegesTracked_before early split
    obtain ⟨executed, community, newOwner, known, proposed, elapsed, taken⟩ :=
      executed_of_owner_changed entry owned changed
    rw [ownerOf, known, Option.map_some, Option.some.injEq] at owned
    refine ⟨executed, community, newOwner, known, taken, ?_⟩
    refine (tracked.transfers id community newOwner known proposed).weaken (fun _ first starts => ?_)
      fun _ kept => kept
    rw [owned] at starts
    exact ⟨starts.proposing, starts.owned, starts.authorized, starts.delayed.trans elapsed⟩

/-- A run in which an owner makes an admin and hands the community over after a delay of ten. -/
def handedOverRun : List Call :=
  let owner := (Address.repeated 1).val
  let env := Env.signedBy []
  [⟨env 0, .setIdentityContract ⟨(Address.repeated 9).val⟩⟩,
    ⟨env 1, .createCommunity ⟨owner, [1], "garden", [], "", 10⟩⟩,
    ⟨env 2, .setRole ⟨[1], owner, (Address.repeated 2).val, 4, [], 100, []⟩⟩,
    ⟨env 3, .proposeOwnerTransfer ⟨[1], owner, (Address.repeated 3).val⟩⟩,
    ⟨env 13, .executeOwnerTransfer ⟨[1]⟩⟩]

theorem community_privileges_handedOverRun :
    ∃ earlier entry, (machine ⟨[], [], id⟩).history (machine ⟨[], [], id⟩).initial handedOverRun =
        earlier ++ [entry] ∧
      (∃ expiresAt, (expiresAt = 0 ∨ 99 < expiresAt) ∧
        AdminSince [1] (Address.repeated 2) expiresAt (earlier ++ [entry])) ∧
      ∃ newOwner delay, ownerOf entry.after [1] = some newOwner ∧
        ProposedSince [1] (Address.repeated 1) newOwner delay 13 earlier := by
  have executes : ((machine ⟨[], [], id⟩).step ((machine ⟨[], [], id⟩).final
      (machine ⟨[], [], id⟩).initial (handedOverRun.take 4))
      ⟨Env.signedBy [] 13, .executeOwnerTransfer ⟨[1]⟩⟩).toBool = true := by decide +kernel
  obtain ⟨⟨after, output⟩, answer⟩ := exists_ok_of_toBool executes
  have history_eq := (machine ⟨[], [], id⟩).history_concat_of_ok answer
  have final_eq := (machine ⟨[], [], id⟩).final_concat_of_ok answer
  have owned : ownerOf ((machine ⟨[], [], id⟩).final (machine ⟨[], [], id⟩).initial
      (handedOverRun.take 4)) [1] = some (Address.repeated 1) := by decide +kernel
  have taken : ownerOf after [1] = some (Address.repeated 3) := by
    rw [← final_eq]
    decide +kernel
  have stored : ((machine ⟨[], [], id⟩).final (machine ⟨[], [], id⟩).initial
      handedOverRun).communities.get [1] =
      some ⟨[1], Address.repeated 3, "garden", [], "", 10, none, 0, 1, 13⟩ := by decide +kernel
  obtain ⟨_, admins, _, owners⟩ := community_privileges ⟨[], [], id⟩ handedOverRun (by decide)
  obtain ⟨_, community, newOwner, _, new, since⟩ := owners _ _ [] history_eq [1] _ owned
    (by rw [taken]; decide)
  obtain ⟨expiresAt, valid, granted⟩ := admins [1] _ (Address.repeated 2) 99 stored (by decide)
    (by decide +kernel)
  have same : (machine ⟨[], [], id⟩).history (machine ⟨[], [], id⟩).initial handedOverRun = _ :=
    history_eq
  rw [same] at granted
  exact ⟨_, _, history_eq, ⟨expiresAt, valid, granted⟩, newOwner, community.transferDelayMs, new,
    since⟩

end OpenSocial.Communities

/-
This file finds when the contracts' keyed reads answer only for the pair they are asked
for. Posts by idempotency key, devices, roles, follows and blocks are kept under two
byte strings put together. The writers require addresses, so their keys tell their pairs
apart; the reads require nothing, and a read whose arguments put the boundary elsewhere
gets the record of another pair.
-/

import OpenSocial.Communities.Effects
import OpenSocial.Identity.Effects
import OpenSocial.Library.Joined
import OpenSocial.Publications.Effects
import OpenSocial.Relationships.Effects

namespace OpenSocial

open Library

/-! ### Pairs with an address -/

/-- The first of the pair is as long as an address. -/
def AddressFirst (pair : Bytes × Bytes) : Prop := pair.1.length = 25

/-- The second of the pair is as long as an address. -/
def AddressSecond (pair : Bytes × Bytes) : Prop := pair.2.length = 25

theorem addressFirst_apart (first second : Bytes × Bytes) (whole : AddressFirst first)
    (whole' : AddressFirst second) (same : first.1 ++ first.2 = second.1 ++ second.2) :
    first = second := by
  obtain ⟨head, tail⟩ := List.append_inj same (whole.trans whole'.symm)
  exact Prod.ext head tail

theorem addressSecond_apart (first second : Bytes × Bytes) (whole : AddressSecond first)
    (whole' : AddressSecond second) (same : first.1 ++ first.2 = second.1 ++ second.2) :
    first = second := by
  obtain ⟨head, tail⟩ := List.append_inj' same (whole.trans whole'.symm)
  exact Prod.ext head tail

theorem isSome_put {Record : Type} (store : Store Bytes Record) (key other : Bytes)
    (record : Record) :
    ((store.put key record).get other).isSome =
      if other = key then true else (store.get other).isSome := by
  rw [Store.get_put]
  split <;> rfl

theorem isSome_remove {Record : Type} (store : Store Bytes Record) (key other : Bytes) :
    ((store.remove key).get other).isSome = true ↔
      (store.get other).isSome = true ∧ key ≠ other := by
  rw [Store.get_remove]
  by_cases same : other = key
  · rw [if_pos same]
    exact ⟨fun present => absurd present Bool.false_ne_true, fun both => absurd same.symm both.2⟩
  · rw [if_neg same]
    exact ⟨fun present => ⟨present, Ne.symm same⟩, And.left⟩

/-! ### Devices -/

namespace Identity

/-- The pair a call stores a device under. -/
def storedDevice : Operation → Option (Bytes × Bytes)
  | .authorizeDevice args => some (args.account, args.device)
  | .revokeDevice args => some (args.account, args.device)
  | _ => none

def deviceKeys : Joined machine UInt8 where
  stores entry := storedDevice entry.call.operation
  removes _ := []
  present state key := (state.devices.get key).isSome

theorem deviceKeys_sound : deviceKeys.Sound AddressFirst where
  apart := addressFirst_apart
  initial _ := rfl
  stored := by
    rintro ⟨before, ⟨env, operation⟩, after, output, accepted⟩ pair stored
    have effect := effect_of_accepted accepted
    dsimp only [deviceKeys] at stored
    cases effect with
    | deviceAuthorized account device =>
      rw [← Option.some.inj stored]
      exact account.property
    | deviceRevoked account device =>
      rw [← Option.some.inj stored]
      exact account.property
    | _ => cases stored
  removed _ _ member := absurd member List.not_mem_nil
  step := by
    rintro ⟨before, ⟨env, operation⟩, after, output, accepted⟩
    have effect := effect_of_accepted accepted
    cases effect with
    | deviceAuthorized account device =>
      refine Joined.steps_put rfl rfl fun key => ?_
      rw [← Util.concat_pair]
      exact isSome_put before.devices _ key _
    | deviceRevoked account device =>
      refine Joined.steps_put rfl rfl fun key => ?_
      rw [← Util.concat_pair]
      exact isSome_put before.devices _ key _
    | _ => exact Joined.steps_same rfl rfl fun _ => rfl

end Identity

/-! ### Posts by idempotency key -/

namespace Publications

/-- The pair a call stores a post under. -/
def boundKey : Operation → Option (Bytes × Bytes)
  | .publish args =>
    if args.idempotencyKey = [] then none else some (args.author, args.idempotencyKey)
  | _ => none

def idempotencyKeys (host : Host) : Joined (machine host) UInt8 where
  stores entry := boundKey entry.call.operation
  removes _ := []
  present state key := (state.idempotency.get key).isSome

theorem isSome_bindKey (state : State) (author : Address) (key postId other : Bytes) :
    ((bindKey state author key postId).idempotency.get other).isSome =
      if key ≠ [] ∧ other = author.val ++ key then true
      else (state.idempotency.get other).isSome := by
  unfold bindKey
  by_cases empty : key = []
  · rw [if_pos empty, if_neg fun both => both.1 empty]
  · rw [if_neg empty, isSome_put, idempotencyKeyOf, Util.concat_pair]
    simp only [ne_eq, empty, not_false_eq_true, true_and]

/-- A publication binds its key, if it has one. -/
theorem steps_publish {host : Host} {entry : (machine host).Accepted} {args : PublishArguments}
    (author : Address) (publishes : entry.call.operation = .publish args)
    (signed : args.author = author.val)
    (bound : entry.after.idempotency =
      (bindKey entry.before author args.idempotencyKey args.postId).idempotency) :
    (idempotencyKeys host).Steps entry := by
  have present : ∀ key, (idempotencyKeys host).present entry.after key =
      if args.idempotencyKey ≠ [] ∧ key = author.val ++ args.idempotencyKey then true
      else (idempotencyKeys host).present entry.before key := by
    intro key
    have bound := congrArg (fun store => (store.get key).isSome) bound
    exact bound.trans (isSome_bindKey entry.before author args.idempotencyKey args.postId key)
  have stores : (idempotencyKeys host).stores entry =
      if args.idempotencyKey = [] then none else some (args.author, args.idempotencyKey) :=
    congrArg boundKey publishes
  by_cases empty : args.idempotencyKey = []
  · rw [if_pos empty] at stores
    refine Joined.steps_same stores rfl fun key => ?_
    rw [present, if_neg fun both => both.1 empty]
  · rw [if_neg empty] at stores
    refine Joined.steps_put stores rfl fun key => ?_
    rw [present, signed]
    simp only [ne_eq, empty, not_false_eq_true, true_and]

theorem idempotencyKeys_sound (host : Host) : (idempotencyKeys host).Sound AddressFirst where
  apart := addressFirst_apart
  initial _ := rfl
  stored := by
    rintro ⟨before, ⟨env, operation⟩, after, output, accepted⟩ pair stored
    have effect := effect_of_accepted accepted
    dsimp only [idempotencyKeys] at stored
    cases effect with
    | firstPublished author args audience signer signed =>
      rw [boundKey, Option.ite_none_left_eq_some] at stored
      rw [← Option.some.inj stored.2, signed]
      exact author.property
    | edited author args existing signer signed =>
      rw [boundKey, Option.ite_none_left_eq_some] at stored
      rw [← Option.some.inj stored.2, signed]
      exact author.property
    | _ => cases stored
  removed _ _ member := absurd member List.not_mem_nil
  step := by
    rintro ⟨before, ⟨env, operation⟩, after, output, accepted⟩
    have effect := effect_of_accepted accepted
    cases effect with
    | firstPublished author args audience signer signed =>
      exact steps_publish author rfl signed rfl
    | edited author args existing signer signed =>
      exact steps_publish author rfl signed rfl
    | _ => exact Joined.steps_same rfl rfl fun _ => rfl

end Publications

/-! ### Roles -/

namespace Communities

/-- The pair a call stores a role under; a role of `none` is removed. -/
def storedRole : Operation → Option (Bytes × Bytes)
  | .setRole args =>
    if CommunityRole.ofWire args.role = some .none then none
    else some (args.communityId, args.subject)
  | _ => none

/-- The pair whose role a call removes. -/
def removedRole (state : State) : Operation → Option (Bytes × Bytes)
  | .setRole args =>
    if CommunityRole.ofWire args.role = some .none then some (args.communityId, args.subject)
    else none
  | .executeOwnerTransfer args =>
    ((state.communities.get args.communityId).bind CommunityRecord.pendingOwner).map
      fun newOwner => (args.communityId, newOwner.val)
  | _ => none

def roleKeys (host : Host) : Joined (machine host) UInt8 where
  stores entry := storedRole entry.call.operation
  removes entry := (removedRole entry.before entry.call.operation).toList
  present state key := (state.roles.get key).isSome

theorem removedRole_transferred {state : State} {communityId : Bytes} {community : CommunityRecord}
    {newOwner : Address} (known : state.communities.get communityId = some community)
    (proposed : community.pendingOwner = some newOwner) :
    removedRole state (.executeOwnerTransfer ⟨communityId⟩) =
      some (communityId, newOwner.val) := by
  unfold removedRole
  dsimp only
  rw [known, Option.bind_some, proposed, Option.map_some]

theorem isSome_removeRole (state : State) (communityId : Bytes) (subject : Address)
    (key : Bytes) :
    ((state.removeRole communityId subject).roles.get key).isSome = true ↔
      (state.roles.get key).isSome = true ∧
        ∀ pair ∈ (some (communityId, subject.val)).toList, pair.1 ++ pair.2 ≠ key := by
  rw [State.removeRole, isSome_remove, roleKey, Util.concat_pair]
  simp only [Option.toList_some, List.mem_singleton, forall_eq]

theorem roleKeys_sound (host : Host) : (roleKeys host).Sound AddressSecond where
  apart := addressSecond_apart
  initial _ := rfl
  stored := by
    rintro ⟨before, ⟨env, operation⟩, after, output, accepted⟩ pair stored
    have effect := effect_of_accepted accepted
    dsimp only [roleKeys] at stored
    cases effect with
    | roleSet communityId actor subject =>
      rw [storedRole, Option.ite_none_left_eq_some] at stored
      rw [← Option.some.inj stored.2]
      exact subject.property
    | _ => cases stored
  removed := by
    rintro ⟨before, ⟨env, operation⟩, after, output, accepted⟩ pair member
    have effect := effect_of_accepted accepted
    have removed := Option.mem_toList.mp member
    cases effect with
    | roleSet communityId actor subject =>
      rw [removedRole, Option.ite_none_right_eq_some] at removed
      rw [← Option.some.inj removed.2]
      exact subject.property
    | transferred communityId community newOwner known proposed =>
      rw [removedRole_transferred known proposed] at removed
      rw [← Option.some.inj removed]
      exact newOwner.property
    | _ => cases removed
  step := by
    rintro ⟨before, ⟨env, operation⟩, after, output, accepted⟩
    have effect := effect_of_accepted accepted
    cases effect with
    | roleSet communityId actor subject wire role scope expiresAt device community signer decoded =>
      by_cases none : role = .none
      · have removal : CommunityRole.ofWire wire = some .none := by rw [decoded, none]
        refine Joined.steps_removed (if_pos removal)
          (congrArg Option.toList (if_pos removal)) fun key => ?_
        dsimp only [roleKeys]
        rw [writeRole, if_pos none]
        exact isSome_removeRole before communityId subject key
      · have written : CommunityRole.ofWire wire ≠ some .none := by
          rw [decoded]
          exact fun same => none (Option.some.inj same)
        refine Joined.steps_put (if_neg written) (congrArg Option.toList (if_neg written))
          fun key => ?_
        dsimp only [roleKeys]
        rw [writeRole, if_neg none, State.putRole, isSome_put, roleKey, Util.concat_pair]
    | transferred communityId community newOwner known proposed =>
      refine Joined.steps_removed rfl
        (congrArg Option.toList (removedRole_transferred known proposed)) fun key => ?_
      exact isSome_removeRole before communityId newOwner key
    | _ => exact Joined.steps_same rfl rfl fun _ => rfl

end Communities

/-! ### Follows and blocks -/

namespace Relationships

/-- The pair a call stores a follow under. -/
def storedFollow : Operation → Option (Bytes × Bytes)
  | .follow args => some (args.follower, args.target)
  | _ => none

/-- The pairs whose follow a call removes: a block ends the follows both ways. -/
def removedFollows : Operation → List (Bytes × Bytes)
  | .unfollow args => [(args.follower, args.target)]
  | .block args => [(args.actor, args.target), (args.target, args.actor)]
  | _ => []

def storedBlock : Operation → Option (Bytes × Bytes)
  | .block args => some (args.actor, args.target)
  | _ => none

def removedBlocks : Operation → List (Bytes × Bytes)
  | .unblock args => [(args.actor, args.target)]
  | _ => []

def followKeys (host : Host) : Joined (machine host) UInt8 where
  stores entry := storedFollow entry.call.operation
  removes entry := removedFollows entry.call.operation
  present state key := (state.follows.get key).isSome

def blockKeys (host : Host) : Joined (machine host) UInt8 where
  stores entry := storedBlock entry.call.operation
  removes entry := removedBlocks entry.call.operation
  present state key := (state.blocks.get key).elim false BlockRecord.blocked

theorem isSome_removeFollow (state : State) (follower target : Address) (key : Bytes) :
    ((state.removeFollow follower target).follows.get key).isSome = true ↔
      (state.follows.get key).isSome = true ∧ follower.val ++ target.val ≠ key := by
  rw [State.removeFollow, isSome_remove, directedKey, Util.concat_pair]

theorem isSome_blockedState (state : State) (actor target : Address) (env : Env) (key : Bytes) :
    ((blockedState state actor target env).follows.get key).isSome = true ↔
      (state.follows.get key).isSome = true ∧
        ∀ pair ∈ removedFollows (.block ⟨actor.val, target.val⟩), pair.1 ++ pair.2 ≠ key := by
  rw [blockedState, isSome_removeFollow, isSome_removeFollow, endEdge_follows]
  simp only [removedFollows, List.mem_cons, List.not_mem_nil, or_false, forall_eq_or_imp, forall_eq,
    and_assoc]
  rfl

theorem blocked_blockedState (state : State) (actor target : Address) (env : Env) (key : Bytes) :
    ((blockedState state actor target env).blocks.get key).elim false BlockRecord.blocked =
      if key = actor.val ++ target.val then true
      else (state.blocks.get key).elim false BlockRecord.blocked := by
  have blocks : (blockedState state actor target env).blocks =
      (state.putBlock actor target ⟨true, env.now⟩).blocks :=
    endEdge_blocks env actor target _
  rw [blocks, State.putBlock, Store.get_put, directedKey, Util.concat_pair]
  split <;> rfl

theorem blocked_removeBlock (state : State) (actor target : Address) (key : Bytes) :
    ((state.removeBlock actor target).blocks.get key).elim false BlockRecord.blocked = true ↔
      (state.blocks.get key).elim false BlockRecord.blocked = true ∧
        ∀ pair ∈ removedBlocks (.unblock ⟨actor.val, target.val⟩), pair.1 ++ pair.2 ≠ key := by
  rw [State.removeBlock, Store.get_remove, directedKey, Util.concat_pair]
  simp only [removedBlocks, List.mem_singleton, forall_eq]
  by_cases same : key = actor.val ++ target.val
  · rw [if_pos same]
    exact ⟨fun present => absurd present Bool.false_ne_true, fun both => absurd same.symm both.2⟩
  · rw [if_neg same]
    exact ⟨fun present => ⟨present, Ne.symm same⟩, And.left⟩

theorem ends_addresses (actor target : Address) (pair : Bytes × Bytes)
    (member : pair ∈ removedFollows (.block ⟨actor.val, target.val⟩)) : AddressFirst pair := by
  rcases List.mem_cons.mp member with rfl | last
  · exact actor.property
  · rw [List.mem_singleton.mp last]
    exact target.property

theorem followKeys_sound (host : Host) : (followKeys host).Sound AddressFirst where
  apart := addressFirst_apart
  initial _ := rfl
  stored := by
    rintro ⟨before, ⟨env, operation⟩, after, output, accepted⟩ pair stored
    have effect := effect_of_accepted accepted
    dsimp only [followKeys] at stored
    cases effect with
    | followed follower target =>
      rw [← Option.some.inj stored]
      exact follower.property
    | _ => cases stored
  removed := by
    rintro ⟨before, ⟨env, operation⟩, after, output, accepted⟩ pair member
    have effect := effect_of_accepted accepted
    dsimp only [followKeys] at member
    cases effect with
    | unfollowed follower target =>
      rw [List.mem_singleton.mp member]
      exact follower.property
    | blockedOther actor target => exact ends_addresses actor target pair member
    | blockedFriend actor target => exact ends_addresses actor target pair member
    | _ => cases member
  step := by
    rintro ⟨before, ⟨env, operation⟩, after, output, accepted⟩
    have effect := effect_of_accepted accepted
    cases effect with
    | followed follower target =>
      refine Joined.steps_put rfl rfl fun key => ?_
      rw [← Util.concat_pair]
      exact isSome_put before.follows _ key _
    | unfollowed follower target device =>
      have removes : removedFollows (.unfollow ⟨follower.val, target.val, device⟩) =
        [(follower.val, target.val)] := rfl
      refine Joined.steps_removed rfl removes fun key => ?_
      simp only [List.mem_singleton, forall_eq]
      exact isSome_removeFollow before follower target key
    | blockedOther actor target =>
      exact Joined.steps_removed rfl rfl (isSome_blockedState before actor target env)
    | blockedFriend actor target =>
      exact Joined.steps_removed rfl rfl (isSome_blockedState before actor target env)
    | _ => exact Joined.steps_same rfl rfl fun _ => rfl

theorem blockKeys_sound (host : Host) : (blockKeys host).Sound AddressFirst where
  apart := addressFirst_apart
  initial _ := rfl
  stored := by
    rintro ⟨before, ⟨env, operation⟩, after, output, accepted⟩ pair stored
    have effect := effect_of_accepted accepted
    dsimp only [blockKeys] at stored
    cases effect with
    | blockedOther actor target =>
      rw [← Option.some.inj stored]
      exact actor.property
    | blockedFriend actor target =>
      rw [← Option.some.inj stored]
      exact actor.property
    | _ => cases stored
  removed := by
    rintro ⟨before, ⟨env, operation⟩, after, output, accepted⟩ pair member
    have effect := effect_of_accepted accepted
    dsimp only [blockKeys] at member
    cases effect with
    | unblocked actor target =>
      rw [List.mem_singleton.mp member]
      exact actor.property
    | _ => cases member
  step := by
    rintro ⟨before, ⟨env, operation⟩, after, output, accepted⟩
    have effect := effect_of_accepted accepted
    cases effect with
    | blockedOther actor target =>
      exact Joined.steps_put rfl rfl (blocked_blockedState before actor target env)
    | blockedFriend actor target =>
      exact Joined.steps_put rfl rfl (blocked_blockedState before actor target env)
    | unblocked actor target =>
      exact Joined.steps_removed rfl rfl (blocked_removeBlock before actor target)
    | _ => exact Joined.steps_same rfl rfl fun _ => rfl

end Relationships

/-! ### The reads -/

theorem isSome_unless {Record : Type} (found : Option Record) (first second : Bytes) :
    (if first = [] ∨ second = [] then none else found).isSome = true ↔
      ¬ (first = [] ∨ second = []) ∧ found.isSome = true := by
  split
  · next empty =>
    exact ⟨fun present => absurd present Bool.false_ne_true, fun both => absurd empty both.1⟩
  · next present => exact ⟨fun isSome => ⟨present, isSome⟩, And.right⟩

theorem getPostByIdempotencyKey_isSome (host : Host) (state : Publications.State)
    (author key : Bytes) :
    (Publications.getPostByIdempotencyKey state author key).isSome = true ↔
      ¬ (author = [] ∨ key = []) ∧
        (Publications.idempotencyKeys host).present state (author ++ key) = true := by
  rw [Publications.getPostByIdempotencyKey, isSome_unless, Publications.idempotencyKeyOf,
    Util.concat_pair]
  rfl

theorem getDevice_isSome (state : Identity.State) (account device : Bytes) :
    (Identity.getDevice state account device).isSome = true ↔
      ¬ (account = [] ∨ device = []) ∧
        Identity.deviceKeys.present state (account ++ device) = true := by
  rw [Identity.getDevice, isSome_unless, Identity.deviceKey, Util.concat_pair]
  rfl

theorem getRole_isSome (host : Host) (state : Communities.State) (communityId subject : Bytes) :
    (Communities.getRole state communityId subject).isSome = true ↔
      ¬ (communityId = [] ∨ subject = []) ∧
        (Communities.roleKeys host).present state (communityId ++ subject) = true := by
  rw [Communities.getRole, isSome_unless, Communities.roleKey, Util.concat_pair]
  rfl

theorem getFollow_isSome (host : Host) (state : Relationships.State) (follower target : Bytes) :
    (Relationships.getFollow state follower target).isSome = true ↔
      ¬ (follower = [] ∨ target = []) ∧
        (Relationships.followKeys host).present state (follower ++ target) = true := by
  rw [Relationships.getFollow, isSome_unless, Relationships.directedKey, Util.concat_pair]
  rfl

theorem isBlocked_eq_true (host : Host) (state : Relationships.State) (actor target : Bytes) :
    Relationships.isBlocked state actor target = true ↔
      ¬ (actor = [] ∨ target = []) ∧
        (Relationships.blockKeys host).present state (actor ++ target) = true := by
  unfold Relationships.isBlocked Relationships.hasBlocked
  rw [Relationships.directedKey, Util.concat_pair]
  split
  · next empty =>
    exact ⟨fun present => absurd present Bool.false_ne_true, fun both => absurd empty both.1⟩
  · next present => exact ⟨fun blocked => ⟨present, blocked⟩, And.right⟩

/-- Each keyed read answers only for the pair it is asked for, in a run, exactly if an argument is
empty or no other pair with a record is put together to the same bytes; so it does whenever the
argument that should be an address has the length of one. -/
theorem keyedReads_iff (host : Host) (x y : Bytes) :
    (∀ calls, (Publications.idempotencyKeys host).AnswersOnly
        (fun state x y => (Publications.getPostByIdempotencyKey state x y).isSome) calls x y ↔
      (Publications.idempotencyKeys host).Undisturbed calls x y) ∧
    (∀ calls, Identity.deviceKeys.AnswersOnly
        (fun state x y => (Identity.getDevice state x y).isSome) calls x y ↔
      Identity.deviceKeys.Undisturbed calls x y) ∧
    (∀ calls, (Communities.roleKeys host).AnswersOnly
        (fun state x y => (Communities.getRole state x y).isSome) calls x y ↔
      (Communities.roleKeys host).Undisturbed calls x y) ∧
    (∀ calls, (Relationships.followKeys host).AnswersOnly
        (fun state x y => (Relationships.getFollow state x y).isSome) calls x y ↔
      (Relationships.followKeys host).Undisturbed calls x y) ∧
    (∀ calls, (Relationships.blockKeys host).AnswersOnly Relationships.isBlocked calls x y ↔
      (Relationships.blockKeys host).Undisturbed calls x y) ∧
    (AddressFirst (x, y) → (∀ calls, (Publications.idempotencyKeys host).Undisturbed calls x y) ∧
      (∀ calls, Identity.deviceKeys.Undisturbed calls x y) ∧
      (∀ calls, (Relationships.followKeys host).Undisturbed calls x y) ∧
      ∀ calls, (Relationships.blockKeys host).Undisturbed calls x y) ∧
    (AddressSecond (x, y) → ∀ calls, (Communities.roleKeys host).Undisturbed calls x y) := by
  have posts := Publications.idempotencyKeys_sound host
  have devices := Identity.deviceKeys_sound
  have roles := Communities.roleKeys_sound host
  have follows := Relationships.followKeys_sound host
  have blocks := Relationships.blockKeys_sound host
  refine ⟨?_, ?_, ?_, ?_, ?_, ?_, ?_⟩
  · exact fun calls => Joined.answersOnly_iff posts (getPostByIdempotencyKey_isSome host) calls x y
  · exact fun calls => Joined.answersOnly_iff devices getDevice_isSome calls x y
  · exact fun calls => Joined.answersOnly_iff roles (getRole_isSome host) calls x y
  · exact fun calls => Joined.answersOnly_iff follows (getFollow_isSome host) calls x y
  · exact fun calls => Joined.answersOnly_iff blocks (isBlocked_eq_true host) calls x y
  · intro whole
    exact ⟨Joined.undisturbed_of_whole posts whole, Joined.undisturbed_of_whole devices whole,
      Joined.undisturbed_of_whole follows whole, Joined.undisturbed_of_whole blocks whole⟩
  · exact fun whole => Joined.undisturbed_of_whole roles whole

/-- The bytes of an account of one repeated byte. -/
def accountOf (byte : UInt8) : Bytes := List.replicate 25 byte

/-- An account registers and authorizes a device. -/
def oneDevice : List Identity.Call :=
  [⟨Env.signedBy (accountOf 1) 100, .register ⟨accountOf 1, List.replicate 32 5, 1, [], ""⟩⟩,
    ⟨Env.signedBy (accountOf 1) 100, .authorizeDevice ⟨accountOf 1, accountOf 2, 1, 200, ""⟩⟩]

/-- The device is found under an account of 24 bytes and a device of 26. -/
theorem device_of_other_pair :
    ¬ ∀ calls x y, Identity.deviceKeys.AnswersOnly
      (fun state x y => (Identity.getDevice state x y).isSome) calls x y := by
  intro only
  have answered : (Identity.getDevice (Identity.machine.final Identity.machine.initial oneDevice)
      ((accountOf 1).take 24) (1 :: accountOf 2)).isSome = true := by
    decide +kernel
  obtain ⟨entry, _, stored⟩ := only oneDevice _ _ answered
  have whole := Identity.deviceKeys_sound.stored entry _ stored
  exact absurd whole (by unfold AddressFirst; decide)

theorem keyedReads_iff_addresses :
    Identity.deviceKeys.Undisturbed oneDevice (accountOf 1) (accountOf 2) ∧
    (Communities.roleKeys ⟨[], [], id⟩).Undisturbed [] [7] (accountOf 2) := by
  have first := keyedReads_iff ⟨[], [], id⟩ (accountOf 1) (accountOf 2)
  have second := keyedReads_iff ⟨[], [], id⟩ [7] (accountOf 2)
  exact ⟨(first.2.2.2.2.2.1 rfl).2.1 oneDevice, second.2.2.2.2.2.2 rfl []⟩

end OpenSocial

/-
This file proves what every run of the relationships contract keeps of the graph
of friendships, follows and blocks.

An accepted call leaves an edge alone or moves it by one of three steps: a
request, an acceptance, or an end. Each step takes the next nonce, and every end
rotates the audience of at least one of the two accounts, of both when they were
friends. Since an epoch never passes its 32 bits, a nonce never wraps.
-/

import OpenSocial.Relationships.Effects

namespace OpenSocial.Relationships

open Library Library.Word

/-! ### Keys of pairs -/

/-- Two accounts are the two others, in either order. -/
def SamePair (x y first second : Address) : Prop :=
  (x = first ∧ y = second) ∨ (x = second ∧ y = first)

instance (x y first second : Address) : Decidable (SamePair x y first second) :=
  inferInstanceAs (Decidable (_ ∨ _))

theorem pairKey_eq_sortedPair (x y : Address) :
    pairKey x.val y.val =
      Util.concat [(sortedPair (fun x y : Address => Util.compare x.val y.val ≤ 0) x y).1.val,
        (sortedPair (fun x y : Address => Util.compare x.val y.val ≤ 0) x y).2.val] := by
  unfold pairKey sortedPair
  by_cases before : Util.compare x.val y.val ≤ 0
  · rw [if_pos before, if_pos (by simpa using before)]
  · rw [if_neg before, if_neg (by simpa using before)]

/-- The key of a pair is that of the same pair only. -/
theorem pairKey_inj {x y first second : Address} :
    pairKey x.val y.val = pairKey first.val second.val ↔ SamePair x y first second := by
  rw [pairKey_eq_sortedPair, pairKey_eq_sortedPair, Util.concat_addresses_inj]
  exact SortedPair.eq_iff Util.decides_compare_le x y first second

theorem pairKey_comm (x y : Address) : pairKey x.val y.val = pairKey y.val x.val :=
  pairKey_inj.mpr (.inr ⟨rfl, rfl⟩)

theorem directedKey_inj {source target first second : Address} :
    directedKey source.val target.val = directedKey first.val second.val ↔
      source = first ∧ target = second := by
  rw [directedKey, directedKey, Util.concat_addresses_inj, Prod.mk.injEq]

/-! ### Reading the graph -/

/-- The edge of a pair. -/
def edgeOf (state : State) (x y : Address) : Option RelationshipRecord :=
  state.edges.get (pairKey x.val y.val)

/-- The status of a pair; without an edge it is none. -/
def statusOf (state : State) (x y : Address) : RelationshipStatus :=
  (edgeOf state x y).elim .none RelationshipRecord.status

/-- The nonce of a pair; without an edge it is zero. -/
def nonceOf (state : State) (x y : Address) : ℕ :=
  (edgeOf state x y).elim 0 RelationshipRecord.nonce

section Reading

variable (state : State) (x y : Address)

theorem edgeOf_comm : edgeOf state x y = edgeOf state y x := by
  rw [edgeOf, edgeOf, pairKey_comm]

theorem statusOf_comm : statusOf state x y = statusOf state y x := by
  rw [statusOf, statusOf, edgeOf_comm]

theorem nonceOf_comm : nonceOf state x y = nonceOf state y x := by
  rw [nonceOf, nonceOf, edgeOf_comm]

theorem edgeOf_putEdge (first second : Address) (record : RelationshipRecord) :
    edgeOf (state.putEdge first second record) x y =
      if SamePair x y first second then some record else edgeOf state x y := by
  rw [edgeOf, State.putEdge, Store.get_put, edgeOf]
  by_cases same : SamePair x y first second
  · rw [if_pos same, if_pos (pairKey_inj.mpr same)]
  · rw [if_neg same, if_neg fun equal => same (pairKey_inj.mp equal)]

theorem hasBlocked_putBlock (actor target : Address) (record : BlockRecord) :
    hasBlocked (state.putBlock actor target record) x.val y.val =
      if x = actor ∧ y = target then record.blocked else hasBlocked state x.val y.val := by
  rw [hasBlocked, State.putBlock, Store.get_put, hasBlocked]
  by_cases same : x = actor ∧ y = target
  · rw [if_pos same, if_pos (directedKey_inj.mpr same), Option.elim_some]
  · rw [if_neg same, if_neg fun equal => same (directedKey_inj.mp equal)]

theorem hasBlocked_removeBlock (actor target : Address) :
    hasBlocked (state.removeBlock actor target) x.val y.val =
      if x = actor ∧ y = target then false else hasBlocked state x.val y.val := by
  rw [hasBlocked, State.removeBlock, Store.get_remove, hasBlocked]
  by_cases same : x = actor ∧ y = target
  · rw [if_pos same, if_pos (directedKey_inj.mpr same), Option.elim_none]
  · rw [if_neg same, if_neg fun equal => same (directedKey_inj.mp equal)]

theorem isFollowing_putFollow (follower target : Address) (record : FollowRecord) :
    isFollowing (state.putFollow follower target record) x.val y.val =
      if x = follower ∧ y = target then record.active else isFollowing state x.val y.val := by
  rw [isFollowing, State.putFollow, Store.get_put, isFollowing]
  by_cases same : x = follower ∧ y = target
  · rw [if_pos same, if_pos (directedKey_inj.mpr same), Option.elim_some]
  · rw [if_neg same, if_neg fun equal => same (directedKey_inj.mp equal)]

theorem isFollowing_removeFollow (follower target : Address) :
    isFollowing (state.removeFollow follower target) x.val y.val =
      if x = follower ∧ y = target then false else isFollowing state x.val y.val := by
  rw [isFollowing, State.removeFollow, Store.get_remove, isFollowing]
  by_cases same : x = follower ∧ y = target
  · rw [if_pos same, if_pos (directedKey_inj.mpr same), Option.elim_none]
  · rw [if_neg same, if_neg fun equal => same (directedKey_inj.mp equal)]

end Reading

/-! ### What a call does to one edge -/

/-- How the edge of two accounts moves in one accepted call. -/
inductive EdgeStep (state after : State) (x y : Address) : Prop
  | kept (same : edgeOf after x y = edgeOf state x y)
  | requested (idle : statusOf state x y = .none ∨ statusOf state x y = .inactive)
      (status : statusOf after x y = .pending)
      (nonce : nonceOf after x y = wrapAdd 64 (nonceOf state x y) 1)
      (free : hasBlocked state x.val y.val = false) (welcome : hasBlocked state y.val x.val = false)
  | accepted (pending : statusOf state x y = .pending) (status : statusOf after x y = .active)
      (nonce : nonceOf after x y = wrapAdd 64 (nonceOf state x y) 1)
      (free : hasBlocked state x.val y.val = false) (welcome : hasBlocked state y.val x.val = false)
  | ended (open_ : statusOf state x y = .pending ∨ statusOf state x y = .active)
      (status : statusOf after x y = .inactive)
      (nonce : nonceOf after x y = wrapAdd 64 (nonceOf state x y) 1)
      (rotates : epochOf state x + epochOf state y < epochOf after x + epochOf after y)
      (both : statusOf state x y = .active →
        epochOf state x < epochOf after x ∧ epochOf state y < epochOf after y)

/-- An edge has no direction. -/
theorem EdgeStep.symm {state after : State} {x y : Address} (step : EdgeStep state after x y) :
    EdgeStep state after y x := by
  cases step with
  | kept same => exact .kept (by rw [edgeOf_comm after, edgeOf_comm state, same])
  | requested idle status nonce free welcome =>
    rw [statusOf_comm state] at idle
    rw [statusOf_comm after] at status
    rw [nonceOf_comm after, nonceOf_comm state] at nonce
    exact .requested idle status nonce welcome free
  | accepted pending status nonce free welcome =>
    rw [statusOf_comm state] at pending
    rw [statusOf_comm after] at status
    rw [nonceOf_comm after, nonceOf_comm state] at nonce
    exact .accepted pending status nonce welcome free
  | ended open_ status nonce rotates both =>
    rw [statusOf_comm state] at open_ both
    rw [statusOf_comm after] at status
    rw [nonceOf_comm after, nonceOf_comm state] at nonce
    refine .ended open_ status nonce ?_ fun active => (both active).symm
    omega

/-- A call that only touches the edge of two accounts moves every edge by a step. -/
theorem edgeStep_of_pair {state after : State} (first second : Address)
    (touched : EdgeStep state after first second)
    (others : ∀ x y, ¬ SamePair x y first second → edgeOf after x y = edgeOf state x y)
    (x y : Address) : EdgeStep state after x y := by
  by_cases same : SamePair x y first second
  · obtain ⟨rfl, rfl⟩ | ⟨rfl, rfl⟩ := same
    · exact touched
    · exact touched.symm
  · exact .kept (others x y same)

theorem statusOf_eq {state : State} {x y : Address} {edge : RelationshipRecord}
    (known : edgeOf state x y = some edge) : statusOf state x y = edge.status := by
  rw [statusOf, known, Option.elim_some]

theorem nonceOf_eq {state : State} {x y : Address} {edge : RelationshipRecord}
    (known : edgeOf state x y = some edge) : nonceOf state x y = edge.nonce := by
  rw [nonceOf, known, Option.elim_some]

/-- A new request finds no open edge and takes the next nonce. -/
theorem nextNonce_eq_ok {state : State} {x y : Address} {nonce : ℕ}
    (next : nextNonce (edgeOf state x y) = .ok nonce) :
    (statusOf state x y = .none ∨ statusOf state x y = .inactive) ∧
      nonce = wrapAdd 64 (nonceOf state x y) 1 := by
  cases known : edgeOf state x y with
  | none =>
    rw [known, nextNonce, pure_eq_ok] at next
    rw [statusOf, nonceOf, known]
    exact ⟨.inl rfl, next.symm⟩
  | some edge =>
    rw [statusOf_eq known, nonceOf_eq known]
    simp only [known, nextNonce, bind_eq_ok, require_eq_ok, pure_eq_ok, exists_const,
      bne_iff_ne] at next
    obtain ⟨notPending, notActive, rfl⟩ := next
    refine ⟨?_, rfl⟩
    cases status : edge.status with
    | none => exact .inl rfl
    | pending => exact absurd status notPending
    | active => exact absurd status notActive
    | inactive => exact .inr rfl

/-- A block ends the edge of the pair if it is open. -/
theorem edgeOf_blockedState (state : State) (actor target x y : Address) (env : Env) :
    edgeOf (blockedState state actor target env) x y =
      if SamePair x y actor target then
        (edgeOf state actor target).map fun edge =>
          if endsEdge edge then moved edge .inactive env.now else edge
      else edgeOf state x y := by
  have unfollowed : edgeOf (blockedState state actor target env) x y =
      edgeOf (endEdge env actor target (state.putBlock actor target ⟨true, env.now⟩)) x y := rfl
  have putBlock_edges : ∀ first second : Address,
      edgeOf (state.putBlock actor target ⟨true, env.now⟩) first second =
        edgeOf state first second := fun _ _ => rfl
  rw [unfollowed, endEdge]
  have own : SamePair x y actor target → edgeOf state x y = edgeOf state actor target := by
    rintro (⟨rfl, rfl⟩ | ⟨rfl, rfl⟩)
    · rfl
    · exact edgeOf_comm state x y
  cases known : edgeOf state actor target with
  | none =>
    have absent : (state.putBlock actor target ⟨true, env.now⟩).edges.get
        (pairKey actor.val target.val) = none := known
    rw [absent]
    by_cases same : SamePair x y actor target
    · rw [if_pos same, Option.map_none]
      exact (own same).trans known
    · rw [if_neg same]
      rfl
  | some edge =>
    have stored : (state.putBlock actor target ⟨true, env.now⟩).edges.get
        (pairKey actor.val target.val) = some edge := known
    rw [stored, Option.map_some]
    by_cases ends : endsEdge edge = true
    · simp only [ends, if_true]
      rw [edgeOf_putEdge, putBlock_edges]
      rfl
    · simp only [ends]
      by_cases same : SamePair x y actor target
      · rw [if_pos same]
        exact (own same).trans known
      · rw [if_neg same]
        rfl

theorem putEdge_epochOf (state : State) (first second account : Address)
    (record : RelationshipRecord) :
    epochOf (state.putEdge first second record) account = epochOf state account := rfl

theorem edgeOf_putEdge_self (state : State) (x y : Address) (record : RelationshipRecord) :
    edgeOf (state.putEdge x y record) x y = some record := by
  rw [edgeOf_putEdge, if_pos (.inl ⟨rfl, rfl⟩)]

theorem edgeOf_putEdge_other (state : State) {x y first second : Address}
    (record : RelationshipRecord) (different : ¬ SamePair x y first second) :
    edgeOf (state.putEdge first second record) x y = edgeOf state x y := by
  rw [edgeOf_putEdge, if_neg different]

/-- Rotating two different accounts advances both of their epochs by one. -/
theorem epochOf_rotated_both (state : State) {x y : Address} (now : ℕ) (different : x ≠ y) :
    epochOf (rotated (rotated state x now) y now) x = epochOf state x + 1 ∧
      epochOf (rotated (rotated state x now) y now) y = epochOf state y + 1 := by
  constructor
  · rw [epochOf_rotated_other _ now different, epochOf_rotated_self]
  · rw [epochOf_rotated_self, epochOf_rotated_other _ now different.symm]

/-- Ending a block's edge is an end, once the audiences have rotated enough. -/
theorem edgeStep_block {state after : State} (actor target : Address) (env : Env)
    (edges : after.edges = (blockedState state actor target env).edges)
    (advanced : epochOf state actor < epochOf after actor)
    (kept : epochOf state target ≤ epochOf after target)
    (friends : statusOf state actor target = .active → epochOf state target < epochOf after target)
    (x y : Address) : EdgeStep state after x y := by
  have read : ∀ first second, edgeOf after first second =
      edgeOf (blockedState state actor target env) first second := by
    intro first second
    rw [edgeOf, edges, edgeOf]
  refine edgeStep_of_pair actor target ?_ (fun first second different => ?_) x y
  · have own := (read actor target).trans (edgeOf_blockedState state actor target actor target env)
    rw [if_pos (.inl ⟨rfl, rfl⟩)] at own
    cases known : edgeOf state actor target with
    | none =>
      rw [known, Option.map_none] at own
      exact .kept (own.trans known.symm)
    | some edge =>
      rw [known, Option.map_some] at own
      by_cases ends : endsEdge edge = true
      · rw [if_pos ends] at own
        refine .ended ?_ ?_ ?_ ?_ fun active => ⟨advanced, friends active⟩
        · rw [statusOf_eq known]
          simpa [endsEdge] using ends
        · rw [statusOf_eq own, moved]
        · rw [nonceOf_eq own, nonceOf_eq known, moved]
        · omega
      · rw [if_neg ends] at own
        exact .kept (own.trans known.symm)
  · rw [read, edgeOf_blockedState, if_neg different]

theorem areFriends_eq_false {state : State} {x y : Address} :
    areFriends state x y = false ↔ statusOf state x y ≠ .active := by
  have read : areFriends state x y = (edgeOf state x y).elim false
      (fun edge => edge.status == .active) := rfl
  rw [read, statusOf]
  cases edgeOf state x y with
  | none => simp
  | some edge => simp

/-- Every accepted call moves every edge by a step. -/
theorem edge_step {host : Host} {env : Env} {operation : Operation} {state after : State}
    {events : List Event} (effect : Effect host env state operation after events)
    (x y : Address) : EdgeStep state after x y := by
  cases effect with
  | tokenContractSet address authorized => exact .kept rfl
  | identityContractSet address authorized => exact .kept rfl
  | requested requester recipient device signer nonce different authorized registered free welcome
      next charged =>
    obtain ⟨idle, nonce_eq⟩ := nextNonce_eq_ok next
    refine edgeStep_of_pair requester recipient ?_
      (fun _ _ => edgeOf_putEdge_other state _) x y
    refine .requested idle (statusOf_eq (edgeOf_putEdge_self state _ _ _)) ?_ free welcome
    rw [nonceOf_eq (edgeOf_putEdge_self state _ _ _), nonce_eq]
  | accepted approver requester device keyPackageRef signer edge different authorized free welcome
      known pending sent =>
    refine edgeStep_of_pair approver requester ?_ (fun _ _ => edgeOf_putEdge_other state _) x y
    refine .accepted ((statusOf_eq known).trans pending)
      (statusOf_eq (edgeOf_putEdge_self state _ _ _)) ?_ free welcome
    rw [nonceOf_eq (edgeOf_putEdge_self state _ _ _), nonceOf_eq known, moved]
  | removed actor peer device signer edge different authorized known active room peerRoom =>
    obtain ⟨own, other⟩ := epochOf_rotated_both
      (state.putEdge actor peer (moved edge .inactive env.now)) env.now different
    rw [putEdge_epochOf] at own other
    refine edgeStep_of_pair actor peer ?_ ?_ x y
    · refine .ended (.inr ((statusOf_eq known).trans active))
        (statusOf_eq (edgeOf_putEdge_self state _ _ _)) ?_ (by omega) fun _ => by omega
      exact (nonceOf_eq (edgeOf_putEdge_self state _ _ _)).trans
        (congrArg (wrapAdd 64 · 1) (nonceOf_eq known).symm)
    · exact fun _ _ => edgeOf_putEdge_other state _
  | blockedOther actor target signer different authorized fresh room apart =>
    refine edgeStep_block actor target env ?_ ?_ ?_ (fun active => ?_) x y
    · rfl
    · rw [epochOf_rotated_self, epochOf_blockedState]
      exact Nat.lt_succ_self _
    · rw [epochOf_rotated_other _ env.now different.symm, epochOf_blockedState]
    · rw [areFriends_eq_false] at apart
      exact absurd active apart
  | blockedFriend actor target signer different authorized fresh room targetRoom friends =>
    obtain ⟨own, other⟩ := epochOf_rotated_both (blockedState state actor target env) env.now
      different
    rw [epochOf_blockedState] at own other
    refine edgeStep_block actor target env ?_ ?_ ?_ (fun _ => ?_) x y
    · rfl
    · rw [own]
      exact Nat.lt_succ_self _
    · rw [other]
      exact Nat.le_succ _
    · rw [other]
      exact Nat.lt_succ_self _
  | unblocked actor target signer different authorized blocked => exact .kept rfl
  | followed follower target device signer different authorized registered free welcome fresh
      charged => exact .kept rfl
  | unfollowed follower target device signer different authorized following => exact .kept rfl
  | audienceRotated actor device signer authorized room => exact .kept rfl

/-! ### Epochs -/

theorem epochOf_rotated (state : State) (account other : Address) (now : ℕ) :
    epochOf (rotated state account now) other =
      if other = account then epochOf state account + 1 else epochOf state other := by
  by_cases same : other = account
  · rw [if_pos same, same, epochOf_rotated_self]
  · rw [if_neg same, epochOf_rotated_other state now same]

/-- Every audience of one state is no newer in the other, and stays in its 32 bits. -/
def EpochsGrow (state after : State) : Prop :=
  ∀ account, epochOf state account ≤ epochOf after account ∧
    (epochOf state account < 2 ^ 32 → epochOf after account < 2 ^ 32)

theorem epochsGrow_refl (state : State) : EpochsGrow state state :=
  fun _ => ⟨le_refl _, id⟩

theorem EpochsGrow.rotate {state after : State} (grow : EpochsGrow state after)
    {account : Address} (room : epochOf after account < 2 ^ 32 - 1) (now : ℕ) :
    EpochsGrow state (rotated after account now) := by
  intro other
  obtain ⟨below, bounded⟩ := grow other
  rw [epochOf_rotated]
  split
  · next same =>
    rw [same] at below ⊢
    omega
  · exact ⟨below, bounded⟩

/-- An accepted call never lowers an epoch, and keeps it in its 32 bits. -/
theorem epoch_step {host : Host} {env : Env} {operation : Operation} {state after : State}
    {events : List Event} (effect : Effect host env state operation after events) :
    EpochsGrow state after := by
  cases effect with
  | removed actor peer device signer edge different authorized known active room peerRoom =>
    have ended : EpochsGrow state (state.putEdge actor peer (moved edge .inactive env.now)) :=
      epochsGrow_refl state
    refine (ended.rotate room env.now).rotate ?_ env.now
    rw [epochOf_rotated_other _ env.now different.symm]
    exact peerRoom
  | blockedOther actor target signer different authorized fresh room apart =>
    have blocked : EpochsGrow state (blockedState state actor target env) := fun account => by
      rw [epochOf_blockedState]
      exact ⟨le_refl _, id⟩
    refine blocked.rotate ?_ env.now
    rw [epochOf_blockedState]
    exact room
  | blockedFriend actor target signer different authorized fresh room targetRoom friends =>
    have blocked : EpochsGrow state (blockedState state actor target env) := fun account => by
      rw [epochOf_blockedState]
      exact ⟨le_refl _, id⟩
    refine (blocked.rotate ?_ env.now).rotate ?_ env.now
    · rw [epochOf_blockedState]
      exact room
    · rw [epochOf_rotated_other _ env.now different.symm, epochOf_blockedState]
      exact targetRoom
  | audienceRotated actor device signer authorized room =>
    exact (epochsGrow_refl state).rotate room env.now
  | tokenContractSet address authorized => exact epochsGrow_refl state
  | identityContractSet address authorized => exact epochsGrow_refl state
  | requested requester recipient device signer nonce different authorized registered free welcome
      next charged => exact epochsGrow_refl state
  | accepted approver requester device keyPackageRef signer edge different authorized free welcome
      known pending sent => exact epochsGrow_refl state
  | unblocked actor target signer different authorized blocked => exact epochsGrow_refl state
  | followed follower target device signer different authorized registered free welcome fresh
      charged => exact epochsGrow_refl state
  | unfollowed follower target device signer different authorized following =>
    exact epochsGrow_refl state

/-! ### Nonces -/

/-- Transitions since the last end: an active edge is two steps from idle, a pending one is one. -/
def openSteps : RelationshipStatus → ℕ
  | .none => 0
  | .pending => 1
  | .active => 2
  | .inactive => 0

/-- Every end of an edge spends an epoch, so epochs bound the nonce. -/
def NonceBounded (state : State) (x y : Address) : Prop :=
  nonceOf state x y ≤ 3 * (epochOf state x + epochOf state y) + openSteps (statusOf state x y)

/-- A bounded nonce has room for the next one. -/
theorem nonce_room {state : State} {x y : Address} (bounded : NonceBounded state x y)
    (epochs : ∀ account, epochOf state account < 2 ^ 32) :
    wrapAdd 64 (nonceOf state x y) 1 = nonceOf state x y + 1 := by
  have first := epochs x
  have second := epochs y
  have steps : openSteps (statusOf state x y) ≤ 2 := by
    cases statusOf state x y <;> decide
  unfold NonceBounded at bounded
  refine wrapAdd_of_lt ?_
  omega

/-- A step of an edge keeps its nonce bounded. -/
theorem nonceBounded_step {state after : State} {x y : Address} (step : EdgeStep state after x y)
    (grow : EpochsGrow state after) (epochs : ∀ account, epochOf state account < 2 ^ 32)
    (bounded : NonceBounded state x y) : NonceBounded after x y := by
  have room := nonce_room bounded epochs
  have first := (grow x).1
  have second := (grow y).1
  unfold NonceBounded at bounded ⊢
  cases step with
  | kept same =>
    have status : statusOf after x y = statusOf state x y := by rw [statusOf, same, statusOf]
    have nonce : nonceOf after x y = nonceOf state x y := by rw [nonceOf, same, nonceOf]
    rw [status, nonce]
    omega
  | requested idle status nonce free welcome =>
    rw [status, nonce, room, openSteps]
    rcases idle with idle | idle
    · rw [idle, openSteps] at bounded
      omega
    · rw [idle, openSteps] at bounded
      omega
  | accepted pending status nonce free welcome =>
    rw [pending, openSteps] at bounded
    rw [status, nonce, room, openSteps]
    omega
  | ended open_ status nonce rotates both =>
    rw [status, nonce, room, openSteps]
    rcases open_ with pending | active
    · rw [pending, openSteps] at bounded
      omega
    · rw [active, openSteps] at bounded
      omega

/-! ### Blocks -/

/-- Whether an account blocks another depends on the blocks alone. -/
theorem hasBlocked_congr {state after : State} (same : after.blocks = state.blocks)
    (x y : Bytes) : hasBlocked after x y = hasBlocked state x y := by
  rw [hasBlocked, hasBlocked, same]

/-- Whether an account follows another depends on the follows alone. -/
theorem isFollowing_congr {state after : State} (same : after.follows = state.follows)
    (x y : Bytes) : isFollowing after x y = isFollowing state x y := by
  rw [isFollowing, isFollowing, same]

theorem hasBlocked_blockedState (state : State) (actor target x y : Address) (env : Env) :
    hasBlocked (blockedState state actor target env) x.val y.val =
      if x = actor ∧ y = target then true else hasBlocked state x.val y.val := by
  have blocks : (blockedState state actor target env).blocks =
      (state.putBlock actor target ⟨true, env.now⟩).blocks := endEdge_blocks env actor target _
  rw [hasBlocked_congr blocks, hasBlocked_putBlock]

/-- A block ends the follows of the pair in both directions. -/
theorem isFollowing_blockedState (state : State) (actor target x y : Address) (env : Env) :
    isFollowing (blockedState state actor target env) x.val y.val =
      if SamePair x y actor target then false else isFollowing state x.val y.val := by
  have kept : isFollowing (endEdge env actor target (state.putBlock actor target ⟨true, env.now⟩))
      x.val y.val = isFollowing state x.val y.val :=
    isFollowing_congr (endEdge_follows env actor target _) x.val y.val
  rw [blockedState, isFollowing_removeFollow, isFollowing_removeFollow, kept]
  by_cases same : SamePair x y actor target
  · rw [if_pos same]
    rcases same with own | back
    · rw [if_pos own, ite_self]
    · rw [if_pos back]
  · rw [if_neg same, if_neg fun back => same (.inr back), if_neg fun own => same (.inl own)]

/-- Nobody who blocks another has an open edge to them, and neither follows the other. -/
def Separated (state : State) : Prop :=
  ∀ x y, hasBlocked state x.val y.val = true →
    statusOf state x y ≠ .pending ∧ statusOf state x y ≠ .active ∧
      isFollowing state x.val y.val = false ∧ isFollowing state y.val x.val = false

/-- A step of an edge opens it only where nobody blocks. -/
theorem closed_of_edgeStep {state after : State} {x y : Address} (step : EdgeStep state after x y)
    (blocked : hasBlocked state x.val y.val = true)
    (closed : statusOf state x y ≠ .pending ∧ statusOf state x y ≠ .active) :
    statusOf after x y ≠ .pending ∧ statusOf after x y ≠ .active := by
  cases step with
  | kept same =>
    have status : statusOf after x y = statusOf state x y := by rw [statusOf, same, statusOf]
    rw [status]
    exact closed
  | requested idle status nonce free welcome => exact absurd (free.symm.trans blocked) (by decide)
  | accepted pending status nonce free welcome => exact absurd pending closed.1
  | ended open_ status nonce rotates both =>
    rw [status]
    exact ⟨by decide, by decide⟩

/-- A call that adds neither a block nor a follow keeps the accounts separated. -/
theorem separated_of_kept {state after : State} (steps : ∀ x y, EdgeStep state after x y)
    (blocks : ∀ x y : Address, hasBlocked after x.val y.val = true →
      hasBlocked state x.val y.val = true)
    (follows : ∀ x y : Address, isFollowing state x.val y.val = false →
      isFollowing after x.val y.val = false)
    (separated : Separated state) : Separated after := by
  intro x y blocked
  have before := blocks x y blocked
  obtain ⟨notPending, notActive, ahead, back⟩ := separated x y before
  obtain ⟨stillNotPending, stillNotActive⟩ :=
    closed_of_edgeStep (steps x y) before ⟨notPending, notActive⟩
  exact ⟨stillNotPending, stillNotActive, follows x y ahead, follows y x back⟩

/-- A new block separates its two accounts. -/
theorem separated_blockedState {state after : State} (actor target : Address) (env : Env)
    (edges : after.edges = (blockedState state actor target env).edges)
    (blocks : after.blocks = (blockedState state actor target env).blocks)
    (follows : after.follows = (blockedState state actor target env).follows)
    (separated : Separated state) : Separated after := by
  intro x y blocked
  have read : edgeOf after x y = edgeOf (blockedState state actor target env) x y := by
    rw [edgeOf, edges, edgeOf]
  rw [hasBlocked_congr blocks, hasBlocked_blockedState] at blocked
  rw [statusOf, read, edgeOf_blockedState, isFollowing_congr follows, isFollowing_congr follows,
    isFollowing_blockedState, isFollowing_blockedState]
  by_cases same : SamePair x y actor target
  · have back : SamePair y x actor target := same.symm.imp And.symm And.symm
    rw [if_pos same, if_pos same, if_pos back]
    cases edgeOf state actor target with
    | none => simp
    | some edge =>
      by_cases ends : endsEdge edge = true
      · simp [ends, moved]
      · have status : edge.status ≠ .pending ∧ edge.status ≠ .active := by
          simpa [endsEdge, not_or] using ends
        simp [ends, status]
  · have back : ¬ SamePair y x actor target := fun equal => same (equal.symm.imp And.symm And.symm)
    rw [if_neg same, if_neg same, if_neg back]
    rw [if_neg fun own => same (.inl own)] at blocked
    exact separated x y blocked

theorem separated_step {host : Host} {env : Env} {operation : Operation} {state after : State}
    {events : List Event} (effect : Effect host env state operation after events)
    (separated : Separated state) : Separated after := by
  have steps := edge_step effect
  cases effect with
  | blockedOther actor target signer different authorized fresh room apart =>
    exact separated_blockedState actor target env rfl rfl rfl separated
  | blockedFriend actor target signer different authorized fresh room targetRoom friends =>
    exact separated_blockedState actor target env rfl rfl rfl separated
  | unblocked actor target signer different authorized blocked =>
    refine separated_of_kept steps (fun x y blocked => ?_) (fun _ _ => id) separated
    rw [hasBlocked_removeBlock] at blocked
    split at blocked
    · exact absurd blocked (by decide)
    · exact blocked
  | followed follower target device signer different authorized registered free welcome fresh
      charged =>
    intro x y blocked
    obtain ⟨notPending, notActive, ahead, back⟩ := separated x y blocked
    refine ⟨notPending, notActive, ?_, ?_⟩
    · rw [isFollowing_putFollow, if_neg, ahead]
      rintro ⟨rfl, rfl⟩
      exact absurd (free.symm.trans blocked) (by decide)
    · rw [isFollowing_putFollow, if_neg, back]
      rintro ⟨rfl, rfl⟩
      exact absurd (welcome.symm.trans blocked) (by decide)
  | unfollowed follower target device signer different authorized following =>
    refine separated_of_kept steps (fun _ _ => id) (fun x y ahead => ?_) separated
    rw [isFollowing_removeFollow]
    split
    · rfl
    · exact ahead
  | tokenContractSet address authorized => exact separated
  | identityContractSet address authorized => exact separated
  | requested requester recipient device signer nonce different authorized registered free welcome
      next charged => exact separated_of_kept steps (fun _ _ => id) (fun _ _ => id) separated
  | accepted approver requester device keyPackageRef signer edge different authorized free welcome
      known pending sent => exact separated_of_kept steps (fun _ _ => id) (fun _ _ => id) separated
  | removed actor peer device signer edge different authorized known active room peerRoom =>
    exact separated_of_kept steps (fun _ _ => id) (fun _ _ => id) separated
  | audienceRotated actor device signer authorized room => exact separated

/-! ### Every run -/

/-- What every reachable state of the contract satisfies. -/
structure GraphInvariant (state : State) : Prop where
  separated : Separated state
  epochs : ∀ account, epochOf state account < 2 ^ 32
  nonces : ∀ x y, NonceBounded state x y

theorem graphInvariant_empty : GraphInvariant empty where
  separated := fun x y blocked => absurd blocked (by simp [hasBlocked, empty])
  epochs := fun account => by simp [epochOf, loadAudience, empty]
  nonces := fun x y => by simp [NonceBounded, nonceOf, edgeOf, empty]

theorem graphInvariant_step {host : Host} {env : Env} {operation : Operation}
    {state after : State} {events : List Event}
    (effect : Effect host env state operation after events) (invariant : GraphInvariant state) :
    GraphInvariant after where
  separated := separated_step effect invariant.separated
  epochs := fun account => (epoch_step effect account).2 (invariant.epochs account)
  nonces := fun x y => nonceBounded_step (edge_step effect x y) (epoch_step effect)
    invariant.epochs (invariant.nonces x y)

/-- The graph invariant holds in every state a run reaches. -/
theorem graphInvariant_final (host : Host) (calls : List Call) :
    GraphInvariant ((machine host).final empty calls) :=
  (machine host).invariant_final empty GraphInvariant graphInvariant_empty
    (fun entry invariant => graphInvariant_step (effect_of_entry entry) invariant) calls

/-- The graph invariant holds before every accepted call of a run. -/
theorem graphInvariant_before {host : Host} {calls : List Call} {entry : (machine host).Accepted}
    (member : entry ∈ (machine host).history empty calls) : GraphInvariant entry.before := by
  obtain ⟨earlier, later, split⟩ := List.append_of_mem member
  obtain ⟨prior, post, _, _, final_eq⟩ := (machine host).history_split split
  rw [← final_eq]
  exact graphInvariant_final host prior

/-- What one accepted call does to the edge of two accounts and to their audiences. -/
structure Rotates (before after : State) (x y : Address) : Prop where
  nonce : statusOf after x y ≠ statusOf before x y → nonceOf before x y < nonceOf after x y
  kept : statusOf after x y = statusOf before x y → nonceOf after x y = nonceOf before x y
  grows : epochOf before x ≤ epochOf after x
  ends : statusOf before x y = .active → statusOf after x y ≠ .active →
    epochOf before x < epochOf after x ∧ epochOf before y < epochOf after y

theorem rotates_of_edgeStep {before after : State} {x y : Address}
    (step : EdgeStep before after x y) (grow : EpochsGrow before after)
    (room : wrapAdd 64 (nonceOf before x y) 1 = nonceOf before x y + 1) :
    Rotates before after x y := by
  have grows := (grow x).1
  cases step with
  | kept same =>
    have status : statusOf after x y = statusOf before x y := by rw [statusOf, same, statusOf]
    have nonce : nonceOf after x y = nonceOf before x y := by rw [nonceOf, same, nonceOf]
    exact ⟨fun moved => absurd status moved, fun _ => nonce, grows,
      fun active ended => absurd (status.trans active) ended⟩
  | requested idle status nonce free welcome =>
    rw [room] at nonce
    refine ⟨fun _ => by omega, fun same => ?_, grows, fun active _ => ?_⟩
    · rw [status] at same
      rcases idle with idle | idle <;> exact absurd (same.trans idle) (by decide)
    · rcases idle with idle | idle <;> exact absurd (active.symm.trans idle) (by decide)
  | accepted pending status nonce free welcome =>
    rw [room] at nonce
    refine ⟨fun _ => by omega, fun same => ?_, grows, fun active _ => ?_⟩
    · exact absurd (status.symm.trans (same.trans pending)) (by decide)
    · exact absurd (active.symm.trans pending) (by decide)
  | ended open_ status nonce rotates both =>
    rw [room] at nonce
    refine ⟨fun _ => by omega, fun same => ?_, grows, fun active _ => both active⟩
    rw [status] at same
    rcases open_ with idle | idle <;> exact absurd (same.trans idle) (by decide)

/-- In every state of every run blocked accounts have no open edge and no follows, and every
accepted call advances the nonce of an edge exactly when its status changes, lowers no audience
epoch, and advances the epochs of both accounts of a friendship that it ends. -/
theorem relationship_graph_safety (host : Host) (calls : List Call) :
    (∀ actor target : Address,
      hasBlocked ((machine host).final empty calls) actor.val target.val = true →
        statusOf ((machine host).final empty calls) actor target ≠ .pending ∧
        statusOf ((machine host).final empty calls) actor target ≠ .active ∧
        isFollowing ((machine host).final empty calls) actor.val target.val = false ∧
        isFollowing ((machine host).final empty calls) target.val actor.val = false) ∧
      ∀ entry ∈ (machine host).history empty calls, ∀ x y, Rotates entry.before entry.after x y := by
  refine ⟨(graphInvariant_final host calls).separated, fun entry member x y => ?_⟩
  have invariant := graphInvariant_before member
  have effect := effect_of_entry entry
  exact rotates_of_edgeStep (edge_step effect x y) (epoch_step effect)
    (nonce_room (invariant.nonces x y) invariant.epochs)

end OpenSocial.Relationships

/-
This file relates friends-only posts to the audience epochs they declare.

The relationships contract and the publications contract take turns in any
order. A call that ends a friendship advances the epochs of both accounts, and
no call lowers one, so every later epoch of an account is above all it had while
the other was a friend. Publishing never reads the relationships contract's
audience: the event carries the epoch the author declared, and a post keeps a
removed friend out exactly as far as that epoch is a later one.
-/

import OpenSocial.Publications.History
import OpenSocial.Relationships.Graph

namespace OpenSocial.Publications

open Library
open Relationships (statusOf epochOf EpochsGrow)

/-! ### The two contracts -/

/-- The relationships and the publications contract, called in any order. -/
def network (relationships publications : Host) :
    Machine (Relationships.State × State) (Relationships.Call ⊕ Call)
      (List Relationships.Event ⊕ List Event) Failure :=
  interleave (Relationships.machine relationships) (machine publications)

/-- The states of both contracts after a list of calls. -/
def reached (relationships publications : Host) (calls : List (Relationships.Call ⊕ Call)) :
    Relationships.State × State :=
  (network relationships publications).final (Relationships.empty, empty) calls

/-- Two accounts are friends. -/
def AreFriends (state : Relationships.State) (x y : Address) : Prop :=
  statusOf state x y = .active

instance (state : Relationships.State) (x y : Address) : Decidable (AreFriends state x y) :=
  inferInstanceAs (Decidable (_ = _))

/-! ### Epochs along a run -/

section Epochs

variable {relationships publications : Host}

/-- A call that ends a friendship advances the epochs of its accounts. -/
theorem epochOf_lt_of_ended {env : Env} {operation : Relationships.Operation}
    {state after : Relationships.State} {events : List Relationships.Event}
    (effect : Relationships.Effect relationships env state operation after events)
    {author peer : Address} (friends : AreFriends state author peer)
    (parted : ¬ AreFriends after author peer) : epochOf state author < epochOf after author := by
  cases Relationships.edge_step effect author peer with
  | kept same =>
    refine absurd ?_ parted
    rw [AreFriends, statusOf, same, ← statusOf]
    exact friends
  | requested idle status nonce free welcome =>
    rcases idle with idle | idle <;> exact absurd (idle.symm.trans friends) (by decide)
  | accepted pending status nonce free welcome => exact absurd status parted
  | ended open_ status nonce rotates both => exact (both friends).1

/-- No call of either contract lowers an epoch. -/
theorem epochOf_le_step (entry : (network relationships publications).Accepted)
    (account : Address) : epochOf entry.before.1 account ≤ epochOf entry.after.1 account := by
  rcases interleave_accepted entry with ⟨own, before, _, after, _⟩ | ⟨own, _, _, after, _⟩
  · rw [after, ← before]
    exact (Relationships.epoch_step (Relationships.effect_of_entry own) account).1
  · rw [after]

theorem epochOf_le_reached (calls later : List (Relationships.Call ⊕ Call)) (account : Address) :
    epochOf (reached relationships publications calls).1 account ≤
      epochOf (reached relationships publications (calls ++ later)).1 account := by
  rw [reached, reached, Machine.final_append]
  refine Machine.invariant_final _ _
    (fun state : Relationships.State × State =>
      epochOf (reached relationships publications calls).1 account ≤ epochOf state.1 account)
    (le_refl _) ?_ later
  intro entry below
  exact below.trans (epochOf_le_step entry account)

/-- The call after which two accounts are no longer friends advances the epochs of both. -/
theorem epochOf_lt_reached {calls : List (Relationships.Call ⊕ Call)}
    {ending : Relationships.Call ⊕ Call} {author peer : Address}
    (friends : AreFriends (reached relationships publications calls).1 author peer)
    (parted : ¬ AreFriends (reached relationships publications (calls ++ [ending])).1 author peer) :
    epochOf (reached relationships publications calls).1 author <
      epochOf (reached relationships publications (calls ++ [ending])).1 author := by
  cases answer : (network relationships publications).step
      (reached relationships publications calls) ending with
  | error failure =>
    have unchanged : reached relationships publications (calls ++ [ending]) =
        reached relationships publications calls := Machine.final_concat_of_error _ answer
    rw [unchanged] at parted
    exact absurd friends parted
  | ok committed =>
    obtain ⟨after, output⟩ := committed
    have changed : reached relationships publications (calls ++ [ending]) = after :=
      Machine.final_concat_of_ok _ answer
    rw [changed] at parted ⊢
    rcases interleave_accepted ⟨_, ending, after, output, answer⟩ with
      ⟨own, before, _, after_eq, _⟩ | ⟨own, _, _, after_eq, _⟩
    · simp only at before after_eq
      rw [← before] at friends ⊢
      rw [after_eq] at parted ⊢
      exact epochOf_lt_of_ended (Relationships.effect_of_entry own) friends parted
    · simp only at after_eq
      rw [after_eq] at parted
      exact absurd friends parted

/-- After a friendship ended the epoch of the author is above all it had while the peer was a
friend. -/
theorem epochOf_lt_of_parted {before between : List (Relationships.Call ⊕ Call)}
    {ending : Relationships.Call ⊕ Call} {author peer : Address}
    (friends : AreFriends (reached relationships publications before).1 author peer)
    (parted : ¬ AreFriends (reached relationships publications (before ++ [ending])).1 author peer)
    {earlier : List (Relationships.Call ⊕ Call)} (beginning : earlier <+: before) :
    epochOf (reached relationships publications earlier).1 author <
      epochOf (reached relationships publications (before ++ [ending] ++ between)).1 author := by
  obtain ⟨rest, rfl⟩ := beginning
  calc epochOf (reached relationships publications earlier).1 author
      ≤ epochOf (reached relationships publications (earlier ++ rest)).1 author :=
        epochOf_le_reached earlier rest author
    _ < epochOf (reached relationships publications (earlier ++ rest ++ [ending])).1 author :=
        epochOf_lt_reached friends parted
    _ ≤ epochOf (reached relationships publications
          (earlier ++ rest ++ [ending] ++ between)).1 author := epochOf_le_reached _ between author

end Epochs

/-! ### Posts after a friendship ended -/

/-- A first version for friends by an author. -/
structure FriendsPost (author : Address) (args : PublishArguments) : Prop where
  first : args.previousVersion = []
  signed : args.author = author.val
  friends : AudienceKind.ofWire args.audience = some .friends

/-- The event of an accepted first version for friends: its epoch is the declared one. -/
def friendsPublished (author : Address) (args : PublishArguments) (now : ℕ) : Event :=
  .published author args.postId args.contentHash [] 1 args.sequence .friends args.audienceId
    args.epoch args.envelope args.media args.replyTo args.idempotencyKey PROTOCOL_VERSION now

theorem friendsPublished_of_effect {host : Host} {env : Env} {author : Address}
    {args : PublishArguments} (post : FriendsPost author args) {state after : State}
    {events : List Event} (effect : Effect host env state (.publish args) after events) :
    events = [friendsPublished author args env.now] := by
  cases effect with
  | firstPublished signer args audience device signed first wellFormed authorized fresh sequenced
      computed target unbound charged =>
    obtain rfl := Subtype.ext (signed.symm.trans post.signed)
    obtain rfl := Option.some.inj (wellFormed.decoded.symm.trans post.friends)
    rfl
  | edited signer args existing device signed later wellFormed authorized known own alive current
      thread unbound charged => exact absurd post.first later

/-- After a friendship ended: an accepted first version for friends carries the epoch its author
declared, and when that is the author's epoch at acceptance it is above every epoch the author had
while the peer was a friend. -/
theorem removed_friend_excluded {relationships publications : Host}
    {before between : List (Relationships.Call ⊕ Call)} {ending : Relationships.Call ⊕ Call}
    {author peer : Address}
    (friends : AreFriends (reached relationships publications before).1 author peer)
    (parted : ¬ AreFriends (reached relationships publications (before ++ [ending])).1 author peer)
    {env : Env} {args : PublishArguments} (post : FriendsPost author args) {after : State}
    {events : List Event}
    (accepted : execute publications
      (reached relationships publications (before ++ [ending] ++ between)).2 ⟨env, .publish args⟩ =
        .ok (after, events)) :
    events = [friendsPublished author args env.now] ∧
      (args.epoch =
          epochOf (reached relationships publications (before ++ [ending] ++ between)).1 author →
        ∀ earlier, earlier <+: before →
          AreFriends (reached relationships publications earlier).1 author peer →
          epochOf (reached relationships publications earlier).1 author < args.epoch) := by
  refine ⟨friendsPublished_of_effect post (effect_of_accepted accepted), ?_⟩
  intro declared earlier beginning _
  rw [declared]
  exact epochOf_lt_of_parted friends parted beginning

/-! ### A post prepared before the friendship ended -/

/-- Two accounts become friends. -/
def friendsRun : List (Relationships.Call ⊕ Call) :=
  let env := Env.signedBy (Address.repeated 1).val
  [.inl ⟨env 1, .setIdentityContract ⟨(Address.repeated 9).val⟩⟩,
    .inr ⟨env 1, .setIdentityContract ⟨(Address.repeated 9).val⟩⟩,
    .inl ⟨env 2, .requestFriend ⟨(Address.repeated 1).val, (Address.repeated 2).val, []⟩⟩,
    .inl ⟨env 3, .acceptFriend ⟨(Address.repeated 2).val, (Address.repeated 1).val, [], []⟩⟩]

/-- The first account ends the friendship. -/
def removal : Relationships.Call ⊕ Call :=
  .inl ⟨Env.signedBy (Address.repeated 1).val 4,
    .removeFriend ⟨(Address.repeated 1).val, (Address.repeated 2).val, []⟩⟩

/-- A first version for friends that declares an epoch. -/
def friendsVersion (epoch : ℕ) : PublishArguments :=
  { sameVersion [] with audience := 1, epoch := epoch }

theorem friendsPost_friendsVersion (epoch : ℕ) :
    FriendsPost (Address.repeated 1) (friendsVersion epoch) :=
  ⟨rfl, rfl, rfl⟩

/-- The call that publishes it. -/
def friendsPublish (epoch : ℕ) : Call :=
  ⟨Env.signedBy (Address.repeated 1).val 5, .publish (friendsVersion epoch)⟩

theorem removed_friend_excluded_friendsRun :
    ∃ after, execute constantHost
        (reached constantHost constantHost (friendsRun ++ [removal] ++ [])).2 (friendsPublish 1) =
          .ok (after, [friendsPublished (Address.repeated 1) (friendsVersion 1) 5]) ∧
      ∀ earlier, earlier <+: friendsRun →
        AreFriends (reached constantHost constantHost earlier).1 (Address.repeated 1)
          (Address.repeated 2) →
        epochOf (reached constantHost constantHost earlier).1 (Address.repeated 1) < 1 := by
  obtain ⟨⟨after, events⟩, accepted⟩ := exists_ok_of_toBool
    (show (execute constantHost (reached constantHost constantHost
      (friendsRun ++ [removal] ++ [])).2 (friendsPublish 1)).toBool = true by decide +kernel)
  obtain ⟨carried, excluded⟩ := removed_friend_excluded
    (show AreFriends (reached constantHost constantHost friendsRun).1 (Address.repeated 1)
      (Address.repeated 2) by decide +kernel)
    (by decide +kernel) (friendsPost_friendsVersion 1) accepted
  rw [carried] at accepted
  exact ⟨after, accepted, excluded (by decide +kernel)⟩

/-- After the first account removed the second, a post it prepared before is accepted and carries
the epoch the account had while they were friends. -/
theorem stale_epoch_published :
    AreFriends (reached constantHost constantHost friendsRun).1 (Address.repeated 1)
        (Address.repeated 2) ∧
      epochOf (reached constantHost constantHost friendsRun).1 (Address.repeated 1) = 0 ∧
      ¬ AreFriends (reached constantHost constantHost (friendsRun ++ [removal])).1
        (Address.repeated 1) (Address.repeated 2) ∧
      epochOf (reached constantHost constantHost (friendsRun ++ [removal])).1
        (Address.repeated 1) = 1 ∧
      FriendsPost (Address.repeated 1) (friendsVersion 0) ∧
      (execute constantHost (reached constantHost constantHost (friendsRun ++ [removal])).2
        (friendsPublish 0)).toBool = true ∧
      (friendsVersion 0).epoch = 0 := by
  refine ⟨by decide +kernel, by decide +kernel, by decide +kernel, by decide +kernel,
    friendsPost_friendsVersion 0, by decide +kernel, rfl⟩

end OpenSocial.Publications

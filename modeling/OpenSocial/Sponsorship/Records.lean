/-
This file proves what holds of the stored records and grants after every run, and that
the sponsors do not get in each other's way.

A record is published by its own sponsor and never goes away; a grant belongs to a
registered sponsor. Of one sponsor's record and grants, nothing depends on any call but
those that name the sponsor and carry its authority.
-/

import OpenSocial.Sponsorship.Effects

namespace OpenSocial.Sponsorship

open Library

/-! ### Reads after writes -/

section Reads

variable (state : State) (sponsor user : Address) (record : SponsorRecord) (grant : UserGrant)

@[simp] theorem putSponsor_sponsors :
    (state.putSponsor sponsor record).sponsors = state.sponsors.put sponsor.val record := rfl

@[simp] theorem putSponsor_grants : (state.putSponsor sponsor record).grants = state.grants := rfl

@[simp] theorem putGrant_sponsors :
    (state.putGrant sponsor user grant).sponsors = state.sponsors := rfl

@[simp] theorem putGrant_grants : (state.putGrant sponsor user grant).grants =
    state.grants.put (grantKey sponsor.val user.val) grant := rfl

end Reads

theorem grantKey_inj {sponsor other user person : Address} :
    grantKey sponsor.val user.val = grantKey other.val person.val ↔
      sponsor = other ∧ user = person := by
  rw [grantKey, grantKey, Util.concat_address_inj, ← Subtype.ext_iff]

/-- An address is not the empty key that the read methods refuse. -/
theorem key_ne_nil (address : Address) : address.val ≠ [] := by
  intro empty
  have length := address.property
  rw [empty] at length
  exact absurd length (by decide)

/-! ### What is stored -/

/-- A record stands under its sponsor's address, is fit to be published, and was registered before
it was last changed. -/
structure RecordSound (now : ℕ) (key : Bytes) (record : SponsorRecord) : Prop where
  keyed : key = record.sponsor.val
  publishable : Publishable record
  ordered : record.registeredAt ≤ record.updatedAt
  past : record.updatedAt ≤ now

/-- A grant stands under its two addresses, which differ; its sponsor was registered when it was
last changed; and unless it was revoked, it was open then. -/
structure GrantSound (now : ℕ) (state : State) (key : Bytes) (grant : UserGrant) : Prop where
  keyed : key = grantKey grant.sponsor.val grant.user.val
  different : grant.sponsor ≠ grant.user
  daily : 1 ≤ grant.dailyOps
  open_ : grant.revoked = false → grant.expiresAt = 0 ∨ grant.updatedAt < grant.expiresAt
  past : grant.updatedAt ≤ now
  registered : ∃ record, state.sponsors.get grant.sponsor.val = some record ∧
    record.registeredAt ≤ grant.updatedAt

structure StateSound (now : ℕ) (state : State) : Prop where
  records : ∀ key record, state.sponsors.get key = some record → RecordSound now key record
  grants : ∀ key grant, state.grants.get key = some grant → GrantSound now state key grant

theorem sound_empty (now : ℕ) : StateSound now empty where
  records key record stored := absurd stored (by simp [empty])
  grants key grant stored := absurd stored (by simp [empty])

theorem sound_wait {earlier later : ℕ} {state : State} (order : earlier ≤ later)
    (sound : StateSound earlier state) : StateSound later state where
  records key record stored :=
    { sound.records key record stored with
      past := (sound.records key record stored).past.trans order }
  grants key grant stored :=
    { sound.grants key grant stored with
      past := (sound.grants key grant stored).past.trans order }

section Step

variable {now : ℕ} {state : State}

/-- Writing a sound record that keeps the time of the registration. -/
theorem sound_putSponsor (sound : StateSound now state) {sponsor : Address} {record : SponsorRecord}
    (new : RecordSound now sponsor.val record)
    (kept : ∀ old, state.sponsors.get sponsor.val = some old →
      record.registeredAt = old.registeredAt) :
    StateSound now (state.putSponsor sponsor record) where
  records key other stored := by
    rw [putSponsor_sponsors, Store.get_put] at stored
    split at stored
    · next same =>
      cases stored
      rw [same]
      exact new
    · exact sound.records key other stored
  grants key grant stored := by
    have old := sound.grants key grant stored
    obtain ⟨known, found, order⟩ := old.registered
    refine { old with registered := ?_ }
    rw [putSponsor_sponsors, Store.get_put]
    split
    · next same =>
      rw [same] at found
      exact ⟨record, rfl, (kept known found).trans_le order⟩
    · exact ⟨known, found, order⟩

theorem sound_putGrant (sound : StateSound now state) {sponsor user : Address} {grant : UserGrant}
    (new : GrantSound now state (grantKey sponsor.val user.val) grant) :
    StateSound now (state.putGrant sponsor user grant) where
  records := sound.records
  grants key other stored := by
    rw [putGrant_grants, Store.get_put] at stored
    split at stored
    · next same =>
      cases stored
      rw [same]
      exact { new with registered := new.registered }
    · next =>
      have old := sound.grants key other stored
      exact { old with registered := old.registered }

theorem sound_step {env : Env} {operation : Operation} {after : State} {events : List Event}
    (effect : Effect env state operation after events) (sound : StateSound env.now state) :
    StateSound env.now after := by
  cases effect with
  | sponsorSet record authorized publishable registered updated =>
    refine sound_putSponsor sound ⟨rfl, publishable, ?_, updated.le⟩ fun old found => ?_
    · rw [registered, updated]
      cases found : state.sponsors.get record.sponsor.val with
      | none => exact le_refl _
      | some old =>
        have known := sound.records _ old found
        exact known.ordered.trans known.past
    · rw [registered, found, Option.elim_some]
  | sponsorDeactivated sponsor record authorized stored =>
    have old := sound.records _ record stored
    refine sound_putSponsor sound ⟨old.keyed, ?_, old.ordered.trans old.past, le_refl _⟩
      fun other found => ?_
    · exact { old.publishable with }
    · cases stored.symm.trans found
      rfl
  | userGrantSet grant record authorized different daily open_ standing updated stored active =>
    have known := sound.records _ record stored
    exact sound_putGrant sound
      { keyed := rfl
        different := different
        daily := daily
        open_ := fun _ => open_.imp_right fun future => updated.le.trans_lt future
        past := updated.le
        registered := ⟨record, stored, updated ▸ known.ordered.trans known.past⟩ }
  | userGrantRevoked sponsor user grant authorized stored =>
    have old := sound.grants _ grant stored
    obtain ⟨record, found, order⟩ := old.registered
    exact sound_putGrant sound
      { keyed := old.keyed
        different := old.different
        daily := old.daily
        open_ := fun standing => absurd standing (by simp)
        past := le_refl _
        registered := ⟨record, found, order.trans old.past⟩ }

end Step

/-! ### What stays -/

/-- Every record and grant of a state is still there in a later one, the record with the time of its
registration. -/
structure Kept (earlier later : State) : Prop where
  records : ∀ key record, earlier.sponsors.get key = some record →
    ∃ other, later.sponsors.get key = some other ∧ other.registeredAt = record.registeredAt
  grants : ∀ key grant, earlier.grants.get key = some grant →
    ∃ other, later.grants.get key = some other

theorem kept_refl (state : State) : Kept state state where
  records _ record stored := ⟨record, stored, rfl⟩
  grants _ grant stored := ⟨grant, stored⟩

theorem kept_trans {first second third : State} (early : Kept first second)
    (late : Kept second third) : Kept first third where
  records key record stored := by
    obtain ⟨middle, found, same⟩ := early.records key record stored
    obtain ⟨last, there, equal⟩ := late.records key middle found
    exact ⟨last, there, equal.trans same⟩
  grants key grant stored := by
    obtain ⟨middle, found⟩ := early.grants key grant stored
    exact late.grants key middle found

theorem kept_putSponsor {state : State} {sponsor : Address} {record : SponsorRecord}
    (same : ∀ old, state.sponsors.get sponsor.val = some old →
      record.registeredAt = old.registeredAt) : Kept state (state.putSponsor sponsor record) where
  records key old stored := by
    rw [putSponsor_sponsors, Store.get_put]
    split
    · next equal => exact ⟨record, rfl, same old (equal ▸ stored)⟩
    · exact ⟨old, stored, rfl⟩
  grants _ grant stored := ⟨grant, stored⟩

theorem kept_putGrant (state : State) (sponsor user : Address) (grant : UserGrant) :
    Kept state (state.putGrant sponsor user grant) where
  records _ record stored := ⟨record, stored, rfl⟩
  grants key old stored := by
    rw [putGrant_grants, Store.get_put]
    split
    · exact ⟨grant, rfl⟩
    · exact ⟨old, stored⟩

theorem kept_step {env : Env} {operation : Operation} {state after : State} {events : List Event}
    (effect : Effect env state operation after events) : Kept state after := by
  cases effect with
  | sponsorSet record authorized publishable registered updated =>
    refine kept_putSponsor fun old found => ?_
    rw [registered, found, Option.elim_some]
  | sponsorDeactivated sponsor record authorized stored =>
    refine kept_putSponsor fun old found => ?_
    cases stored.symm.trans found
    rfl
  | userGrantSet grant record authorized different daily open_ standing updated stored active =>
    exact kept_putGrant state _ _ grant
  | userGrantRevoked sponsor user grant authorized stored =>
    exact kept_putGrant state sponsor user _

theorem kept_final (state : State) (calls : List Call) : Kept state (machine.final state calls) :=
  machine.run_induction state (fun _ later => Kept state later) (kept_refl state)
    (fun _ entry early => kept_trans early (kept_step (effect_of_entry entry))) calls

/-- After every run with a clock, the records and grants are sound; and whatever a prefix of the run
has stored is still there. -/
theorem sponsorship_sound (clock : ℕ) (calls later : List Call)
    (chronological : Machine.Chronological Call.time clock (calls ++ later)) (now : ℕ)
    (started : clock ≤ now) (passed : ∀ call ∈ calls ++ later, call.time ≤ now) :
    StateSound now (machine.final empty (calls ++ later)) ∧
      Kept (machine.final empty calls) (machine.final empty (calls ++ later)) := by
  refine ⟨?_, ?_⟩
  · exact machine.timed_induction Call.time empty clock (fun time _ state => StateSound time state)
      (sound_empty clock) (fun _ _ _ _ order sound => sound_wait order sound) (calls ++ later)
      (fun _ entry _ sound => sound_step (effect_of_entry entry) sound) chronological now started
      passed
  · rw [Machine.final_append]
    exact kept_final _ later

/-- A sponsor registers at 5, grants a user a daily operation until 9, and then turns both back. -/
def shortService : List Call :=
  let sponsor := Address.repeated 1
  let user := Address.repeated 2
  let env := Env.signedBy sponsor.val
  [⟨env 5, .setSponsor ⟨sponsor.val, "https://sponsor.example", "", 1, [], 0, 0, 1024, true⟩⟩,
    ⟨env 6, .setUserGrant ⟨sponsor.val, user.val, 1, 9⟩⟩,
    ⟨env 7, .revokeUserGrant ⟨sponsor.val, user.val⟩⟩,
    ⟨env 8, .deactivateSponsor ⟨sponsor.val⟩⟩]

theorem sponsorship_sound_shortService :
    StateSound 8 (machine.final empty (shortService.take 2 ++ shortService.drop 2)) ∧
      Kept (machine.final empty (shortService.take 2))
        (machine.final empty (shortService.take 2 ++ shortService.drop 2)) :=
  sponsorship_sound 5 (shortService.take 2) (shortService.drop 2)
    ⟨by simp [shortService, Call.time, Env.signedBy],
      by simp [shortService, Call.time, Env.signedBy]⟩ 8 (by decide)
    (by simp [shortService, Call.time, Env.signedBy])

/-! ### One sponsor among others -/

/-- The sponsor a call names. -/
def Operation.sponsor : Operation → Bytes
  | .setSponsor args => args.sponsor
  | .deactivateSponsor args => args.sponsor
  | .setUserGrant args => args.sponsor
  | .revokeUserGrant args => args.sponsor

/-- A call names a sponsor and carries its authority. -/
def actsFor (sponsor : Address) (call : Call) : Bool :=
  call.operation.sponsor == sponsor.val && call.env.authority sponsor.val

/-- The record of a sponsor and its grants to every user. -/
def holdings (sponsor : Address) (state : State) :
    Option SponsorRecord × (Address → Option UserGrant) :=
  (state.sponsors.get sponsor.val,
    fun user => state.grants.get (grantKey sponsor.val user.val))

section Isolation

variable {env : Env} {operation : Operation} {state other after : State} {events : List Event}
  {sponsor : Address}

theorem holdings_eq_iff : holdings sponsor state = holdings sponsor other ↔
    state.sponsors.get sponsor.val = other.sponsors.get sponsor.val ∧
      ∀ user : Address, state.grants.get (grantKey sponsor.val user.val) =
        other.grants.get (grantKey sponsor.val user.val) := by
  rw [holdings, holdings, Prod.mk.injEq, funext_iff]

/-- Writing the same record for a sponsor leaves states that agreed on it in agreement. -/
theorem holdings_putSponsor (same : holdings sponsor state = holdings sponsor other)
    (record : SponsorRecord) :
    holdings sponsor (state.putSponsor sponsor record) =
      holdings sponsor (other.putSponsor sponsor record) := by
  obtain ⟨_, grants⟩ := holdings_eq_iff.mp same
  refine holdings_eq_iff.mpr ⟨?_, grants⟩
  rw [putSponsor_sponsors, putSponsor_sponsors, Store.get_put, Store.get_put, if_pos rfl,
    if_pos rfl]

theorem holdings_putGrant (same : holdings sponsor state = holdings sponsor other) (user : Address)
    (grant : UserGrant) :
    holdings sponsor (state.putGrant sponsor user grant) =
      holdings sponsor (other.putGrant sponsor user grant) := by
  obtain ⟨record, grants⟩ := holdings_eq_iff.mp same
  refine holdings_eq_iff.mpr ⟨record, fun person => ?_⟩
  rw [putGrant_grants, putGrant_grants, Store.get_put, Store.get_put, grants person]

/-- Writing for another sponsor leaves what a sponsor holds. -/
theorem holdings_putSponsor_other {author : Address} (different : author ≠ sponsor)
    (record : SponsorRecord) :
    holdings sponsor (state.putSponsor author record) = holdings sponsor state := by
  refine holdings_eq_iff.mpr ⟨?_, fun _ => rfl⟩
  rw [putSponsor_sponsors, Store.get_put, if_neg fun same => different (Subtype.ext same.symm)]

theorem holdings_putGrant_other {author : Address} (different : author ≠ sponsor) (user : Address)
    (grant : UserGrant) :
    holdings sponsor (state.putGrant author user grant) = holdings sponsor state := by
  refine holdings_eq_iff.mpr ⟨rfl, fun person => ?_⟩
  rw [putGrant_grants, Store.get_put, if_neg fun same => different (grantKey_inj.mp same).1.symm]

/-- An accepted call either acts for a sponsor or leaves what it holds. -/
theorem holdings_of_not_actsFor (effect : Effect env state operation after events)
    (strange : actsFor sponsor ⟨env, operation⟩ = false) :
    holdings sponsor after = holdings sponsor state := by
  have apart : ∀ author : Address, operation.sponsor = author.val →
      env.authority author.val = true → author ≠ sponsor := by
    rintro author named authorized rfl
    rw [actsFor, named, authorized, beq_self_eq_true] at strange
    exact absurd strange (by decide)
  cases effect with
  | sponsorSet record authorized publishable registered updated =>
    exact holdings_putSponsor_other (apart _ rfl authorized) record
  | sponsorDeactivated author record authorized stored =>
    exact holdings_putSponsor_other (apart _ rfl authorized) _
  | userGrantSet grant record authorized different daily open_ standing updated stored active =>
    exact holdings_putGrant_other (apart _ rfl authorized) _ grant
  | userGrantRevoked author user grant authorized stored =>
    exact holdings_putGrant_other (apart _ rfl authorized) user _

/-- What a call that acts for a sponsor answers and leaves depends on what the sponsor holds. -/
theorem answers_of_actsFor {call : Call} (own : actsFor sponsor call = true)
    (same : holdings sponsor state = holdings sponsor other) :
    (execute state call).map (fun committed => holdings sponsor committed.1) =
      (execute other call).map fun committed => holdings sponsor committed.1 := by
  obtain ⟨record, grants⟩ := holdings_eq_iff.mp same
  obtain ⟨env, operation⟩ := call
  have named : operation.sponsor = sponsor.val :=
    eq_of_beq (Bool.and_eq_true_iff.mp own).1
  have author : ∀ what (address : Address),
      Util.requireAddress operation.sponsor what = .ok address → address = sponsor := by
    intro what address checked
    rw [Util.requireAddress_eq_ok, named] at checked
    exact Subtype.ext checked.symm
  cases operation with
  | setSponsor args =>
    refine map_bind_congr fun address checked => ?_
    rw [author _ address checked]
    refine map_bind_congr fun _ _ => map_bind_congr fun _ _ => map_bind_congr fun _ _ =>
      map_bind_congr fun _ _ => map_bind_congr fun _ _ => ?_
    rw [record]
    exact congrArg Except.ok (holdings_putSponsor same _)
  | deactivateSponsor args =>
    refine map_bind_congr fun address checked => ?_
    rw [author _ address checked]
    refine map_bind_congr fun _ _ => ?_
    rw [requireSponsorRecord, requireSponsorRecord, record]
    exact map_bind_congr fun _ _ => congrArg Except.ok (holdings_putSponsor same _)
  | setUserGrant args =>
    refine map_bind_congr fun address checked => ?_
    rw [author _ address checked]
    refine map_bind_congr fun user _ => map_bind_congr fun _ _ => map_bind_congr fun _ _ =>
      map_bind_congr fun _ _ => map_bind_congr fun _ _ => ?_
    rw [requireSponsorRecord, requireSponsorRecord, record]
    exact map_bind_congr fun _ _ => map_bind_congr fun _ _ =>
      congrArg Except.ok (holdings_putGrant same user _)
  | revokeUserGrant args =>
    refine map_bind_congr fun address checked => ?_
    rw [author _ address checked]
    refine map_bind_congr fun user _ => map_bind_congr fun _ _ => ?_
    rw [grants user]
    exact map_bind_congr fun _ _ => congrArg Except.ok (holdings_putGrant same user _)

end Isolation

/-- After every run, a sponsor holds what the calls that name it and carry its authority alone would
have left it; nobody else's call, accepted or not, makes a difference. -/
theorem sponsor_isolated (sponsor : Address) (calls : List Call) :
    holdings sponsor (machine.final empty calls) =
      holdings sponsor (machine.final empty (calls.filter (actsFor sponsor))) := by
  refine machine.view_final_filter (holdings sponsor) (actsFor sponsor) ?_ ?_ empty calls
  · intro state call strange
    cases answer : machine.step state call with
    | error failure => rw [machine.next_of_error answer]
    | ok committed =>
      rw [machine.next_of_ok answer]
      exact holdings_of_not_actsFor (effect_of_accepted answer) strange
  · intro first second call own same
    exact machine.view_next_congr (answers_of_actsFor own same) same

end OpenSocial.Sponsorship

/-
This file runs sponsoring calls concurrently over one quota store and proves the
accounts of the store: what a day's row counts, what the counters count, and the
resources of the transactions the service co-signed.

The sums go over the reservations handed out. A release takes a share out of a
sum and nothing else does, so the row, which is clamped and dropped at zero, is
never below a share it has to give back.
-/

import OpenSocial.Sponsor.Service

namespace OpenSocial.Sponsor

open Library Sdk

/-! ### Sums over reservations -/

/-- Replacing one item of a list moves its share of a sum. -/
theorem sum_map_set {Item : Type} (share : Item → ℕ) {items : List Item} {index : ℕ}
    {before : Item} (after : Item) (found : items[index]? = some before) :
    ((items.set index after).map share).sum + share before = (items.map share).sum + share after := by
  induction items generalizing index with
  | nil => cases found
  | cons item rest inductionHypothesis =>
    cases index with
    | zero =>
      obtain rfl := Option.some.inj found
      rw [List.set_cons_zero, List.map_cons, List.map_cons, List.sum_cons, List.sum_cons]
      exact Nat.add_right_comm _ _ _ |>.trans (by rw [Nat.add_comm (share after), Nat.add_right_comm])
    | succ index' =>
      have moved := inductionHypothesis found
      rw [List.set_cons_succ, List.map_cons, List.map_cons, List.sum_cons, List.sum_cons,
        Nat.add_assoc, moved, Nat.add_assoc]

namespace QuotaStore

/-- What a reservation counts for a user's day: its operations, unless it was released. -/
def heldShare (user : String) (day : Day) (held : Reservation) : ℕ :=
  if held.user = user ∧ utcDay held.time = day ∧ held.settled ≠ some .released then held.ops else 0

/-- The operations of the user's reservations of that day that were not released. -/
def heldOps (store : QuotaStore) (user : String) (day : Day) : ℕ :=
  (store.reservations.map (heldShare user day)).sum

/-- What a reservation counts among the accepted operations of a day. -/
def committedShare (day : Day) (held : Reservation) : ℕ :=
  if utcDay held.time = day ∧ held.settled = some .committed then held.ops else 0

/-- The operations of the committed reservations of a day. -/
def committedOps (store : QuotaStore) (day : Day) : ℕ :=
  (store.reservations.map (committedShare day)).sum

/-- `usage.ops` of the user's day. -/
def usageOps (store : QuotaStore) (user : String) (day : Day) : ℕ :=
  ((store.usage.get (user, day)).map UsageRow.ops).getD 0

/-- The counter of accepted operations of a day. -/
def acceptedOps (store : QuotaStore) (day : Day) : ℕ :=
  (store.counters.get (day, .acceptedOps)).getD 0

/-- The rows and counters agree with the reservations, and no day exceeds its allowance. -/
structure Accounted (limits : QuotaLimits) (store : QuotaStore) : Prop where
  daily : ∀ user day, store.usageOps user day = store.heldOps user day
  bounded : ∀ user day, store.heldOps user day ≤ limits.dailyOps
  accepted : ∀ day, store.acceptedOps day = store.committedOps day

section Accounted

variable {limits : QuotaLimits} {store : QuotaStore}

theorem accounted_empty : Accounted limits empty :=
  ⟨fun _ _ => rfl, fun _ _ => Nat.zero_le _, fun _ => rfl⟩

theorem usageOps_hold (user : String) (ops time : ℕ) (other : String) (day : Day) :
    (store.hold user ops time).usageOps other day = store.usageOps other day +
      if other = user ∧ day = utcDay time then ops else 0 := by
  unfold usageOps hold
  dsimp only
  rw [Store.get_put]
  by_cases same : (other, day) = (user, utcDay time)
  · rw [if_pos same, if_pos (Prod.mk.inj same), same]
    cases store.usage.get (user, utcDay time) with
    | none => rfl
    | some row => rfl
  · rw [if_neg same, if_neg (fun both => same (Prod.ext both.1 both.2))]
    rfl

theorem Accounted.reserve (accounted : Accounted limits store) (user : String) (ops time : ℕ) :
    Accounted limits (store.reserve limits user ops time).2 := by
  have made := reserve_cases limits store user ops time
  generalize store.reserve limits user ops time = result at made ⊢
  cases made with
  | refused refusal => exact ⟨accounted.daily, accounted.bounded, accounted.accepted⟩
  | held remaining daily burst =>
    have share : ∀ other day, heldShare other day ⟨user, ops, time, none⟩ =
        if other = user ∧ day = utcDay time then ops else 0 := by
      intro other day
      unfold heldShare
      congr 1
      exact propext ⟨fun both => ⟨both.1.symm, both.2.1.symm⟩,
        fun both => ⟨both.1.symm, both.2.symm, fun impossible => by cases impossible⟩⟩
    have grown : ∀ other day,
        ((store.reservations ++ [(⟨user, ops, time, none⟩ : Reservation)]).map
          (heldShare other day)).sum =
          store.heldOps other day + if other = user ∧ day = utcDay time then ops else 0 := by
      intro other day
      rw [List.map_append, List.sum_append, List.map_singleton, List.sum_singleton, share]
      rfl
    refine ⟨fun other day => ?_, fun other day => ?_, fun day => ?_⟩
    · refine (usageOps_hold user ops time other day).trans ?_
      refine Eq.trans ?_ (grown other day).symm
      rw [← accounted.daily other day]
      rfl
    · refine (grown other day).trans_le ?_
      split
      · next same =>
        obtain ⟨rfl, rfl⟩ := same
        rw [← accounted.daily other]
        exact daily
      · exact accounted.bounded other day
    · refine (accounted.accepted day).trans ?_
      show (store.reservations.map (committedShare day)).sum = ((store.reservations ++
        [(⟨user, ops, time, none⟩ : Reservation)]).map (committedShare day)).sum
      rw [List.map_append, List.sum_append, List.map_singleton, List.sum_singleton]
      have none : committedShare day ⟨user, ops, time, none⟩ = 0 :=
        if_neg fun both => by cases both.2
      rw [none, Nat.add_zero]

theorem counter_bump (day other : Day) (key otherKey : CounterKey) (amount : ℕ) :
    ((store.bump day key amount).counters.get (other, otherKey)).getD 0 =
      (store.counters.get (other, otherKey)).getD 0 +
        if (other, otherKey) = (day, key) then amount else 0 := by
  unfold bump
  dsimp only
  rw [Store.get_put]
  split
  · next same =>
    rw [same]
    rfl
  · rfl

theorem usageOps_settle (held : Reservation) (reverted : Bool) (user : String) (day : Day) :
    (store.settle held reverted).usageOps user day = store.usageOps user day := by
  have row : (store.settle held reverted).usageOps user day =
      ((if (user, day) = (held.user, utcDay held.time) then
        some ({ ((store.usage.get (held.user, utcDay held.time)).getD ⟨0, 0, 0, held.time⟩) with
          txs := ((store.usage.get (held.user, utcDay held.time)).getD ⟨0, 0, 0, held.time⟩).txs + 1
          reverted := ((store.usage.get (held.user, utcDay held.time)).getD
            ⟨0, 0, 0, held.time⟩).reverted + reverted.toNat
          updatedAt := held.time } : UsageRow)
        else store.usage.get (user, day)).map UsageRow.ops).getD 0 := by
    rw [← Store.get_put]
    cases reverted <;> rfl
  rw [row]
  unfold usageOps
  split
  · next same =>
    rw [same]
    cases store.usage.get (held.user, utcDay held.time) with
    | none => rfl
    | some row => rfl
  · rfl

theorem acceptedOps_settle (held : Reservation) (reverted : Bool) (day : Day) :
    (store.settle held reverted).acceptedOps day = store.acceptedOps day +
      if day = utcDay held.time then held.ops else 0 := by
  have bumped : (store.settle held reverted).acceptedOps day =
      (((store.bump (utcDay held.time) .accepted 1).bump (utcDay held.time) .acceptedOps
        held.ops).counters.get (day, .acceptedOps)).getD 0 := by
    cases reverted with
    | false => rfl
    | true =>
      refine (counter_bump _ _ _ _ _).trans ?_
      rw [if_neg (fun same => CounterKey.noConfusion (Prod.mk.inj same).2)]
      rfl
  rw [bumped, counter_bump, counter_bump,
    if_neg (fun same => CounterKey.noConfusion (Prod.mk.inj same).2), Nat.add_zero]
  congr 1
  exact if_congr ⟨fun same => (Prod.mk.inj same).1, fun same => same ▸ rfl⟩ rfl rfl

theorem usageOps_unhold (reservation : ℕ) (held : Reservation) (user : String) (day : Day) :
    (store.unhold reservation held).usageOps user day = store.usageOps user day -
      if user = held.user ∧ day = utcDay held.time then held.ops else 0 := by
  have returned : (store.unhold reservation held).usage =
      (store.usage.get (held.user, utcDay held.time)).elim store.usage fun row =>
        if row.ops - held.ops = 0 ∧ row.txs = 0 then
          store.usage.remove (held.user, utcDay held.time)
        else store.usage.put (held.user, utcDay held.time)
          { row with ops := row.ops - held.ops, updatedAt := held.time } := by
    unfold unhold
    dsimp only
    cases store.bursts.get held.user <;> cases store.usage.get (held.user, utcDay held.time) <;> rfl
  unfold usageOps
  rw [returned]
  by_cases same : user = held.user ∧ day = utcDay held.time
  · rw [if_pos same]
    obtain ⟨rfl, rfl⟩ := same
    cases stored : store.usage.get (held.user, utcDay held.time) with
    | none =>
      rw [Option.elim_none, stored]
      exact (Nat.zero_sub _).symm
    | some row =>
      rw [Option.elim_some]
      split
      · next emptied =>
        rw [Store.get_remove, if_pos rfl]
        exact emptied.1.symm
      · rw [Store.get_put, if_pos rfl]
        rfl
  · rw [if_neg same, Nat.sub_zero]
    have different : (user, day) ≠ (held.user, utcDay held.time) :=
      fun equal => same (Prod.mk.inj equal)
    cases store.usage.get (held.user, utcDay held.time) with
    | none => rfl
    | some row =>
      rw [Option.elim_some]
      split
      · rw [Store.get_remove, if_neg different]
      · rw [Store.get_put, if_neg different]

theorem counters_unhold (reservation : ℕ) (held : Reservation) :
    (store.unhold reservation held).counters = store.counters := by
  unfold unhold
  dsimp only
  split <;> rfl

/-- The share of an open reservation. -/
theorem heldShare_open {held : Reservation} (opened : held.settled = none) (user : String)
    (day : Day) : heldShare user day held =
      if user = held.user ∧ day = utcDay held.time then held.ops else 0 := by
  unfold heldShare
  refine if_congr ⟨fun both => ⟨both.1.symm, both.2.1.symm⟩, fun both => ?_⟩ rfl rfl
  refine ⟨both.1.symm, both.2.symm, ?_⟩
  rw [opened]
  exact Option.some_ne_none _ |>.symm

theorem heldShare_released (held : Reservation) (user : String) (day : Day) :
    heldShare user day { held with settled := some .released } = 0 :=
  if_neg fun both => both.2.2 rfl

theorem heldShare_committed {held : Reservation} (opened : held.settled = none) (user : String)
    (day : Day) : heldShare user day { held with settled := some .committed } =
      heldShare user day held := by
  unfold heldShare
  refine if_congr ?_ rfl rfl
  rw [opened]
  exact ⟨fun both => ⟨both.1, both.2.1, (Option.some_ne_none _).symm⟩,
    fun both => ⟨both.1, both.2.1, fun same => by cases same⟩⟩

theorem committedShare_unless {held : Reservation} (pending : held.settled ≠ some .committed)
    (day : Day) : committedShare day held = 0 :=
  if_neg fun both => pending both.2

theorem Accounted.commit (accounted : Accounted limits store) (reservation : ℕ) (reverted : Bool) :
    Accounted limits (store.commit reservation reverted) := by
  have made := settleOnce_cases store reservation .committed fun store held =>
    store.settle held reverted
  unfold QuotaStore.commit
  generalize store.settleOnce reservation .committed
    (fun store held => store.settle held reverted) = after at made ⊢
  cases made with
  | nothing => exact accounted
  | settled held found opened =>
    have same : ∀ user day, (((store.settle held reverted).reservations.set reservation
        { held with settled := some .committed }).map (heldShare user day)).sum =
          store.heldOps user day := by
      intro user day
      rw [reservations_settle]
      have moved := sum_map_set (heldShare user day) { held with settled := some .committed } found
      rw [heldShare_committed opened] at moved
      exact Nat.add_right_cancel moved
    refine ⟨fun user day => ?_, fun user day => ?_, fun day => ?_⟩
    · refine (usageOps_settle held reverted user day).trans ?_
      exact (accounted.daily user day).trans (same user day).symm
    · exact (same user day).trans_le (accounted.bounded user day)
    · refine (acceptedOps_settle held reverted day).trans ?_
      show _ = (((store.settle held reverted).reservations.set reservation
        { held with settled := some .committed }).map (committedShare day)).sum
      rw [reservations_settle]
      have moved := sum_map_set (committedShare day) { held with settled := some .committed } found
      have pending : held.settled ≠ some .committed := by
        rw [opened]
        exact (Option.some_ne_none _).symm
      have share : committedShare day { held with settled := some .committed } =
          if day = utcDay held.time then held.ops else 0 :=
        if_congr ⟨fun both => both.1.symm, fun same => ⟨same.symm, rfl⟩⟩ rfl rfl
      rw [committedShare_unless pending, Nat.add_zero, share] at moved
      rw [moved, accounted.accepted]
      rfl

theorem Accounted.release (accounted : Accounted limits store) (reservation : ℕ) :
    Accounted limits (store.release reservation) := by
  have made := settleOnce_cases store reservation .released fun store held =>
    store.unhold reservation held
  unfold QuotaStore.release
  generalize store.settleOnce reservation .released
    (fun store held => store.unhold reservation held) = after at made ⊢
  cases made with
  | nothing => exact accounted
  | settled held found opened =>
    have less : ∀ user day, (((store.unhold reservation held).reservations.set reservation
        { held with settled := some .released }).map (heldShare user day)).sum +
          (if user = held.user ∧ day = utcDay held.time then held.ops else 0) =
            store.heldOps user day := by
      intro user day
      rw [reservations_unhold]
      have moved := sum_map_set (heldShare user day) { held with settled := some .released } found
      rw [heldShare_released, Nat.add_zero, heldShare_open opened] at moved
      exact moved
    refine ⟨fun user day => ?_, fun user day => ?_, fun day => ?_⟩
    · refine (usageOps_unhold reservation held user day).trans ?_
      rw [accounted.daily, ← less user day]
      exact Nat.add_sub_cancel _ _
    · refine le_trans ?_ (accounted.bounded user day)
      rw [← less user day]
      exact Nat.le_add_right _ _
    · have same : (store.unhold reservation held).acceptedOps day = store.acceptedOps day := by
        unfold acceptedOps
        rw [counters_unhold]
      refine same.trans ((accounted.accepted day).trans ?_)
      show _ = (((store.unhold reservation held).reservations.set reservation
        { held with settled := some .released }).map (committedShare day)).sum
      rw [reservations_unhold]
      have moved := sum_map_set (committedShare day) { held with settled := some .released } found
      have pending : held.settled ≠ some .committed := by
        rw [opened]
        exact (Option.some_ne_none _).symm
      have gone : ({ held with settled := some .released } : Reservation).settled ≠
          some .committed := fun same => by cases same
      rw [committedShare_unless pending, committedShare_unless gone] at moved
      exact (Nat.add_right_cancel moved).symm

theorem Accounted.recordRefusal (accounted : Accounted limits store)
    (category : SponsorErrorCategory) (time : ℕ) :
    Accounted limits (store.recordRefusal category time) := by
  refine ⟨accounted.daily, accounted.bounded, fun day => ?_⟩
  refine Eq.trans ?_ (accounted.accepted day)
  refine (counter_bump _ _ _ _ _).trans ?_
  rw [if_neg (fun same => CounterKey.noConfusion (Prod.mk.inj same).2)]
  rfl

end Accounted

end QuotaStore

/-! ### Concurrent calls -/

/-- The store, the clock, the times at which the reservations were handed out, and the transactions
that were co-signed, each under its reservation. -/
structure World where
  store : QuotaStore
  time : ℕ
  made : List ℕ
  cosigned : List (ℕ × Json)

/-- A service that was just started. -/
def World.fresh (time : ℕ) : World := ⟨QuotaStore.empty, time, [], []⟩

/-- A call is suspended where the source awaits. -/
def waits : Request → Bool
  | .wait => true
  | .ownerOf _ => true
  | .sign _ _ => true
  | .send _ _ => true
  | _ => false

/-- How the requests of a call are served; the chain library, the signer and the node may answer
anything. -/
def serves (limits : QuotaLimits) (world : World) :
    (request : Request) → Answer request → World → Prop
  | .now, answer, after => answer = world.time ∧ after = world
  | .wait, _, after => after = world
  | .ownerOf _, _, after => after = world
  | .reserve payee ops time, answer, after =>
    answer = (world.store.reserve limits payee ops time).1 ∧
      after = { world with
        store := (world.store.reserve limits payee ops time).2
        made := if answer.toBool then world.made ++ [world.time] else world.made }
  | .sign reservation transaction, answer, after =>
    after = { world with cosigned :=
        if answer.toBool then world.cosigned ++ [(reservation, transaction)] else world.cosigned }
  | .send _ _, _, after => after = world
  | .commit reservation reverted, _, after =>
    after = { world with store := world.store.commit reservation reverted }
  | .release reservation, _, after =>
    after = { world with store := world.store.release reservation }
  | .recordRefusal category time, _, after =>
    after = { world with store := world.store.recordRefusal category time }

/-- The clock runs. -/
def runtime (limits : QuotaLimits) : Runtime Request Answer World where
  awaits := waits
  serve := serves limits
  drift world later := ∃ time, world.time ≤ time ∧ later = { world with time := time }

/-- Every task is a sponsoring call. -/
def Started (service : SponsorService) (program : Action SponsorResponse) : Prop :=
  ∃ input, program = sponsor service input

abbrev Calls := List (Action SponsorResponse)

/-- A run of sponsoring calls reaches this world, with these calls under way. -/
def Reached (service : SponsorService) (world : World) (calls : Calls) : Prop :=
  ∃ time, (runtime service.limits).Reaches (Started service) (World.fresh time, []) (world, calls)

/-! ### Phases of a call -/

/-- The RC limit of a transaction. -/
def rcLimitOf (transaction : Json) : Except SponsorRefusal ℕ :=
  parseRcLimit ((transaction.get? "header").bind fun header => header.get? "rc_limit")

/-- A transaction of this payee within the ceiling of its operations. -/
structure Ceiling (maxRcPerOp : ℕ) (payee : String) (ops : ℕ) (transaction : Json) : Prop where
  payee : ((transaction.get? "header").bind fun header => header.get? "payee") =
    some (.string payee)
  limit : ∃ rcLimit, rcLimitOf transaction = .ok rcLimit ∧ rcLimit ≤ maxRcPerOp * ops

theorem Accepted.ceiling {context : ValidationContext} {input : Json}
    {accepted : ValidatedTransaction} (accepts : Accepted context input accepted) :
    Ceiling context.limits.maxRcPerOp accepted.payee accepted.operations.length
      accepted.transaction := by
  cases accepts with
  | @intro header checked operations resolved pending rcLimit expectedId signatures signers present
      headed inspected parsed bounded root hashed named signed counted =>
    refine ⟨rfl, rcLimit, ?_, ?_⟩
    · cases limit : header.get? "rc_limit" with
      | none =>
        rw [limit] at parsed
        cases parsed
      | some value =>
        rw [limit] at parsed
        exact parsed
    · dsimp only
      rw [counted]
      exact bounded

/-- What a call has done so far. -/
inductive Phase where
  | unreserved
  | reserved (reservation : ℕ) (payee : String) (ops : ℕ)
  | handed

/-- The ceiling of the service, if it serves. -/
def SponsorService.maxRcPerOp (service : SponsorService) : ℕ :=
  (service.serving.map fun context => context.limits.maxRcPerOp).getD 0

/-- A call reserves once, and co-signs once under its reservation. -/
def calling (maxRcPerOp : ℕ) : Runtime.Protocol Request Answer Phase where
  asks phase request := match request with
    | .reserve _ _ _ => phase = .unreserved
    | .sign reservation transaction => ∃ payee ops, phase = .reserved reservation payee ops ∧
        Ceiling maxRcPerOp payee ops transaction
    | _ => True
  gets _ _ _ := True
  next phase request answer := match request, answer with
    | .reserve payee ops _, .ok (reservation, _) => .reserved reservation payee ops
    | .sign _ _, _ => .handed
    | _, _ => phase

section Phases

variable {maxRcPerOp : ℕ} {phase : Phase}

theorem follows_refused {Value : Type} (refusal : SponsorRefusal) :
    (calling maxRcPerOp).Follows (fun ending later => later = phase ∧
      ∀ value, ending ≠ .ok value) (refused refusal : Action Value) phase :=
  ⟨trivial, fun _ _ => ⟨trivial, fun _ _ => ⟨rfl, fun value impossible => by cases impossible⟩⟩⟩

theorem follows_concluded (reservation : ℕ) (response : Json) (answer : SendAnswer) :
    (calling maxRcPerOp).Follows (fun _ _ => True) (concluded reservation response answer)
      phase := by
  cases answer with
  | rejected error =>
    exact ⟨trivial, fun _ _ => (follows_refused _).weaken fun _ _ _ => trivial⟩
  | lost error =>
    exact ⟨trivial, fun _ _ => (follows_refused _).weaken fun _ _ _ => trivial⟩
  | answered returned =>
    refine .lift_seq (fun _ _ => trivial) fun receipt _ => ⟨trivial, fun _ _ => ?_⟩
    show (calling maxRcPerOp).Follows _ (if _ then _ else _) _
    split
    · trivial
    · show (calling maxRcPerOp).Follows _ (if _ then _ else _) _
      split <;> trivial

theorem follows_broadcast {reservation : ℕ} {payee : String} {ops : ℕ} {transaction : Json}
    (ceiling : Ceiling maxRcPerOp payee ops transaction) :
    (calling maxRcPerOp).Follows (fun _ _ => True) (broadcast reservation transaction)
      (.reserved reservation payee ops) := by
  refine ⟨⟨payee, ops, rfl, ceiling⟩, fun answer _ => ?_⟩
  cases answer with
  | error message =>
    exact ⟨trivial, fun _ _ => (follows_refused _).weaken fun _ _ _ => trivial⟩
  | ok signatures =>
    exact ⟨trivial, fun answer _ => follows_concluded _ _ answer⟩

theorem follows_countingRefusals {Value : Type} {program : Action Value} {accepts : Value → Prop}
    (follows : (calling maxRcPerOp).Follows (fun ending later => later = phase ∧
      ∀ value, ending = .ok value → accepts value) program phase) :
    (calling maxRcPerOp).Follows (fun ending later => later = phase ∧
      ∀ value, ending = .ok value → accepts value) (countingRefusals program) phase := by
  refine .attempt_seq follows ?_
  rintro ending later ⟨rfl, accepted⟩
  cases ending with
  | ok value =>
    refine ⟨rfl, fun other same => ?_⟩
    obtain rfl := Except.ok.inj same
    exact accepted value rfl
  | error failure =>
    cases failure with
    | refused refusal =>
      exact (follows_refused refusal).weaken fun ending last ended =>
        ⟨ended.1, fun value same => absurd same (ended.2 value)⟩
    | internal message => exact ⟨rfl, fun value impossible => by cases impossible⟩

/-- A sponsoring call follows its protocol. -/
theorem follows_sponsor (service : SponsorService) (input : Json) :
    (calling service.maxRcPerOp).Follows (fun _ _ => True) (sponsor service input)
      .unreserved := by
  refine .lift_seq (fun _ _ => trivial) fun context serving => ?_
  have served : service.serving = some context := by
    cases given : service.serving with
    | none =>
      rw [given] at serving
      cases serving
    | some other =>
      rw [given] at serving
      rw [Except.ok.inj serving]
  have ceiling : service.maxRcPerOp = context.limits.maxRcPerOp := by
    unfold SponsorService.maxRcPerOp
    rw [served]
    rfl
  refine ⟨trivial, fun time _ => ?_⟩
  have waiting : Still (calling service.maxRcPerOp) .unreserved (ask .wait) :=
    ⟨trivial, fun _ _ => rfl⟩
  have asking : ∀ account, Still (calling service.maxRcPerOp) .unreserved
      (ask (.ownerOf account)) := fun account => ⟨trivial, fun _ _ => rfl⟩
  have validating : (calling service.maxRcPerOp).Follows (fun ending later =>
      later = .unreserved ∧ ∀ accepted, ending = .ok accepted → Accepted context input accepted)
      (validated context input) .unreserved :=
    follows_validateTransaction waiting asking context input
  refine (follows_countingRefusals validating).seq (fun _ _ _ => trivial) ?_
  rintro accepted later ⟨rfl, accepts⟩
  refine ⟨rfl, fun decision _ => ?_⟩
  cases decision with
  | error refusal => exact (follows_refused _).weaken fun _ _ _ => trivial
  | ok reserved =>
    have within := (accepts accepted rfl).ceiling
    rw [← ceiling] at within
    exact follows_broadcast within

end Phases

/-! ### The accounts of concurrent calls -/

/-- What an operation of the store leaves of a reservation. -/
structure SameCharge (held later : Reservation) : Prop where
  user : later.user = held.user
  ops : later.ops = held.ops
  time : later.time = held.time
  settled : held.settled.isSome = true → later.settled = held.settled

/-- Reservations stay where they are, with what they charged. -/
def Extends (store after : QuotaStore) : Prop :=
  ∀ (reservation : ℕ) (held : Reservation), store.reservations[reservation]? = some held →
    ∃ later, after.reservations[reservation]? = some later ∧ SameCharge held later

theorem extends_refl (store : QuotaStore) : Extends store store :=
  fun _ held found => ⟨held, found, rfl, rfl, rfl, fun _ => rfl⟩

theorem extends_reserve (limits : QuotaLimits) (store : QuotaStore) (user : String)
    (ops time : ℕ) : Extends store (store.reserve limits user ops time).2 := by
  have made := QuotaStore.reserve_cases limits store user ops time
  generalize store.reserve limits user ops time = result at made ⊢
  cases made with
  | refused refusal => exact extends_refl store
  | held remaining daily burst =>
    intro reservation held found
    refine ⟨held, ?_, rfl, rfl, rfl, fun _ => rfl⟩
    have inside := (List.getElem?_eq_some_iff.mp found).1
    exact (List.getElem?_append_left inside).trans found

theorem extends_settleOnce (store : QuotaStore) (reservation : ℕ) (settlement : Settlement)
    {effect : QuotaStore → Reservation → QuotaStore}
    (keeps : ∀ held, (effect store held).reservations = store.reservations) :
    Extends store (store.settleOnce reservation settlement effect) := by
  have made := QuotaStore.settleOnce_cases store reservation settlement effect
  generalize store.settleOnce reservation settlement effect = after at made ⊢
  cases made with
  | nothing => exact extends_refl store
  | settled held found opened =>
    intro other before given
    show ∃ later, ((effect store held).reservations.set _ _)[other]? = some later ∧ _
    rw [keeps]
    by_cases same : reservation = other
    · subst same
      obtain rfl := Option.some.inj (found.symm.trans given)
      refine ⟨_, List.getElem?_set_self (List.getElem?_eq_some_iff.mp found).1, rfl, rfl, rfl,
        fun settled => ?_⟩
      rw [opened] at settled
      cases settled
    · exact ⟨before, (List.getElem?_set_ne same).trans given, rfl, rfl, rfl, fun _ => rfl⟩

theorem extends_commit (store : QuotaStore) (reservation : ℕ) (reverted : Bool) :
    Extends store (store.commit reservation reverted) :=
  extends_settleOnce store reservation .committed
    fun held => QuotaStore.reservations_settle store held reverted

theorem extends_release (store : QuotaStore) (reservation : ℕ) :
    Extends store (store.release reservation) :=
  extends_settleOnce store reservation .released
    fun held => QuotaStore.reservations_unhold store reservation held

theorem Extends.trans {first second third : QuotaStore} (before : Extends first second)
    (after : Extends second third) : Extends first third := by
  intro reservation held found
  obtain ⟨middle, stored, charge⟩ := before reservation held found
  obtain ⟨later, standing, next⟩ := after reservation middle stored
  refine ⟨later, standing, next.user.trans charge.user, next.ops.trans charge.ops,
    next.time.trans charge.time, fun settled => ?_⟩
  have same := charge.settled settled
  exact (next.settled (same ▸ settled)).trans same

/-- Whatever a request does to the store, the reservations stay. -/
theorem extends_serves {limits : QuotaLimits} {world after : World} {request : Request}
    {answer : Answer request} (served : serves limits world request answer after) :
    Extends world.store after.store := by
  cases request with
  | now => exact served.2 ▸ extends_refl _
  | reserve payee ops time =>
    obtain ⟨_, rfl⟩ := served
    exact extends_reserve limits world.store payee ops time
  | commit reservation reverted =>
    obtain rfl := served
    exact extends_commit world.store reservation reverted
  | release reservation =>
    obtain rfl := served
    exact extends_release world.store reservation
  | _ =>
    obtain rfl := served
    exact extends_refl _

/-- Reservations stay throughout a run. -/
theorem extends_reached {service : SponsorService} {first last : World × Calls}
    (reached : (runtime service.limits).Reaches (Started service) first last) :
    Extends first.1.store last.1.store := by
  have drifts : ∀ world later : World, Extends first.1.store world.store →
      (runtime service.limits).drift world later → Extends first.1.store later.store := by
    rintro world later kept ⟨time, _, rfl⟩
    exact kept
  have serving : ∀ (world : World) (request : Request) (answer : Answer request) (after : World),
      Extends first.1.store world.store →
        (runtime service.limits).serve world request answer after →
          Extends first.1.store after.store :=
    fun _ _ _ _ kept served => kept.trans (extends_serves served)
  exact Runtime.served_reached drifts serving (extends_refl first.1.store) reached

/-- The store and the co-signed transactions agree with what the calls have done. -/
structure Kept (service : SponsorService) (world : World) (phases : List Phase) : Prop where
  accounted : QuotaStore.Accounted service.limits world.store
  once : (world.cosigned.map Prod.fst).Nodup
  ceiling : ∀ entry ∈ world.cosigned, ∃ held, world.store.reservations[entry.1]? = some held ∧
    Ceiling service.maxRcPerOp held.user held.ops entry.2
  reserved : ∀ (index reservation : ℕ) (payee : String) (ops : ℕ),
    phases[index]? = some (.reserved reservation payee ops) →
      reservation ∉ world.cosigned.map Prod.fst ∧
        ∃ held, world.store.reservations[reservation]? = some held ∧ held.user = payee ∧
          held.ops = ops
  apart : ∀ (first second reservation : ℕ) (payee other : String) (ops others : ℕ),
    phases[first]? = some (.reserved reservation payee ops) →
      phases[second]? = some (.reserved reservation other others) → first = second

section Kept

variable {service : SponsorService} {world : World} {phases : List Phase}

/-- A store that grows under the same co-signed transactions. -/
theorem Kept.extended (kept : Kept service world phases) {store : QuotaStore} (time : ℕ)
    (made : List ℕ) (accounted : QuotaStore.Accounted service.limits store)
    (extended : Extends world.store store) :
    Kept service ⟨store, time, made, world.cosigned⟩ phases where
  accounted := accounted
  once := kept.once
  ceiling := by
    intro entry member
    obtain ⟨held, found, ceiling⟩ := kept.ceiling entry member
    obtain ⟨later, stored, same⟩ := extended _ held found
    exact ⟨later, stored, same.user ▸ same.ops ▸ ceiling⟩
  reserved := by
    intro index reservation payee ops standing
    obtain ⟨unsigned, held, found, user, charged⟩ := kept.reserved index reservation payee ops
      standing
    obtain ⟨later, stored, same⟩ := extended _ held found
    exact ⟨unsigned, later, stored, same.user.trans user, same.ops.trans charged⟩
  apart := kept.apart

/-- A call that reserves nothing now. -/
theorem Kept.settled (kept : Kept service world phases) (index : ℕ) {phase : Phase}
    (unreserved : ∀ reservation payee ops, phase ≠ .reserved reservation payee ops) :
    Kept service world (phases.set index phase) where
  accounted := kept.accounted
  once := kept.once
  ceiling := kept.ceiling
  reserved := by
    intro position reservation payee ops standing
    by_cases same : index = position
    · subst same
      obtain ⟨inside, now⟩ := List.getElem?_eq_some_iff.mp standing
      rw [List.getElem_set_self] at now
      exact absurd now (unreserved reservation payee ops)
    · rw [List.getElem?_set_ne same] at standing
      exact kept.reserved position reservation payee ops standing
  apart := by
    intro first second reservation payee other ops others one another
    have old : ∀ (position : ℕ) (payee : String) (ops : ℕ),
        (phases.set index phase)[position]? = some (.reserved reservation payee ops) →
          phases[position]? = some (.reserved reservation payee ops) := by
      intro position payee ops standing
      by_cases same : index = position
      · subst same
        obtain ⟨inside, now⟩ := List.getElem?_eq_some_iff.mp standing
        rw [List.getElem_set_self] at now
        exact absurd now (unreserved reservation payee ops)
      · rw [List.getElem?_set_ne same] at standing
        exact standing
    exact kept.apart first second reservation payee other ops others (old _ _ _ one)
      (old _ _ _ another)

theorem phases_unchanged {index : ℕ} {phase : Phase} (standing : phases[index]? = some phase) :
    phases.set index phase = phases := by
  obtain ⟨inside, rfl⟩ := List.getElem?_eq_some_iff.mp standing
  exact List.set_getElem_self inside

/-- A new reservation belongs to the call that made it. -/
theorem Kept.reserving (kept : Kept service world phases) {index : ℕ} {phase : Phase}
    (standing : phases[index]? = some phase) (payee : String) (ops time : ℕ)
    {answer : Except QuotaRefusal (ℕ × QuotaRemaining)}
    (answered : answer = (world.store.reserve service.limits payee ops time).1) :
    Kept service
      { world with
        store := (world.store.reserve service.limits payee ops time).2
        made := if answer.toBool then world.made ++ [world.time] else world.made }
      (phases.set index
        ((calling service.maxRcPerOp).next phase (.reserve payee ops time) answer)) := by
  have accounted := kept.accounted.reserve payee ops time
  have extended := extends_reserve service.limits world.store payee ops time
  have stepped := kept.extended world.time
    (if answer.toBool then world.made ++ [world.time] else world.made) accounted extended
  have made := QuotaStore.reserve_cases service.limits world.store payee ops time
  generalize world.store.reserve service.limits payee ops time = result at *
  cases made with
  | refused refusal =>
    subst answered
    show Kept service _ (phases.set index phase)
    rw [phases_unchanged standing]
    exact stepped
  | held remaining daily burst =>
    subst answered
    show Kept service _ (phases.set index
      (.reserved world.store.reservations.length payee ops))
    -- No call and no co-signed transaction knows the reservation handed out now.
    have fresh : ∀ (position : ℕ) (other : String) (others : ℕ),
        phases[position]? ≠ some (.reserved world.store.reservations.length other others) := by
      intro position other others standing
      obtain ⟨_, held, found, _⟩ := kept.reserved position _ other others standing
      exact absurd (List.getElem?_eq_some_iff.mp found).1 (lt_irrefl _)
    have unsigned : world.store.reservations.length ∉ world.cosigned.map Prod.fst := by
      intro member
      obtain ⟨entry, signed, same⟩ := List.mem_map.mp member
      obtain ⟨held, found, _⟩ := kept.ceiling entry signed
      rw [same] at found
      exact absurd (List.getElem?_eq_some_iff.mp found).1 (lt_irrefl _)
    refine ⟨stepped.accounted, stepped.once, stepped.ceiling, ?_, ?_⟩
    · intro position reservation other others now
      by_cases same : index = position
      · subst same
        obtain ⟨inside, equal⟩ := List.getElem?_eq_some_iff.mp now
        rw [List.getElem_set_self] at equal
        cases equal
        exact ⟨unsigned, _, List.getElem?_concat_length, rfl, rfl⟩
      · rw [List.getElem?_set_ne same] at now
        exact stepped.reserved position reservation other others now
    · intro first second reservation user other count others one another
      by_cases mine : index = first
      · by_cases yours : index = second
        · exact mine.symm.trans yours
        · subst mine
          obtain ⟨inside, equal⟩ := List.getElem?_eq_some_iff.mp one
          rw [List.getElem_set_self] at equal
          cases equal
          rw [List.getElem?_set_ne yours] at another
          exact absurd another (fresh second other others)
      · rw [List.getElem?_set_ne mine] at one
        by_cases yours : index = second
        · subst yours
          obtain ⟨inside, equal⟩ := List.getElem?_eq_some_iff.mp another
          rw [List.getElem_set_self] at equal
          cases equal
          exact absurd one (fresh first user count)
        · rw [List.getElem?_set_ne yours] at another
          exact kept.apart first second reservation user other count others one another

/-- A transaction is co-signed under the reservation of its call. -/
theorem Kept.signing (kept : Kept service world phases) {index reservation : ℕ} {payee : String}
    {ops : ℕ} (standing : phases[index]? = some (.reserved reservation payee ops))
    {transaction : Json} (ceiling : Ceiling service.maxRcPerOp payee ops transaction) :
    Kept service { world with cosigned := world.cosigned ++ [(reservation, transaction)] }
      (phases.set index .handed) := by
  obtain ⟨unsigned, held, found, user, charged⟩ := kept.reserved index reservation payee ops
    standing
  have handed : Kept service world (phases.set index .handed) :=
    kept.settled index (fun reservation payee ops impossible => by cases impossible)
  refine ⟨kept.accounted, ?_, ?_, ?_, handed.apart⟩
  · rw [List.map_append, List.map_singleton, List.nodup_append]
    refine ⟨kept.once, List.nodup_singleton _, fun first member second single => ?_⟩
    rw [List.mem_singleton] at single
    intro same
    rw [same, single] at member
    exact unsigned member
  · intro entry member
    rcases List.mem_append.mp member with old | new
    · exact kept.ceiling entry old
    · rw [List.mem_singleton] at new
      subst new
      exact ⟨held, found, by rw [user, charged]; exact ceiling⟩
  · intro position other user' count now
    obtain ⟨before, rest⟩ := handed.reserved position other user' count now
    refine ⟨fun member => ?_, rest⟩
    rw [List.map_append, List.mem_append, List.map_singleton, List.mem_singleton] at member
    rcases member with old | rfl
    · exact before old
    · by_cases same : index = position
      · subst same
        obtain ⟨inside, equal⟩ := List.getElem?_eq_some_iff.mp now
        rw [List.getElem_set_self] at equal
        cases equal
      · rw [List.getElem?_set_ne same] at now
        exact same (kept.apart index position _ _ _ _ _ standing now)

theorem reserved_of_started {index reservation : ℕ} {payee : String} {ops : ℕ}
    (standing : (phases ++ [.unreserved])[index]? = some (.reserved reservation payee ops)) :
    phases[index]? = some (.reserved reservation payee ops) := by
  by_cases old : index < phases.length
  · rw [List.getElem?_append_left old] at standing
    exact standing
  · rw [List.getElem?_append_right (not_lt.mp old)] at standing
    cases position : index - phases.length with
    | zero =>
      rw [position] at standing
      cases standing
    | succ position' =>
      rw [position] at standing
      cases standing

/-- A call that starts has reserved nothing. -/
theorem Kept.started (kept : Kept service world phases) :
    Kept service world (phases ++ [.unreserved]) where
  accounted := kept.accounted
  once := kept.once
  ceiling := kept.ceiling
  reserved := fun index reservation payee ops standing =>
    kept.reserved index reservation payee ops (reserved_of_started standing)
  apart := fun first second reservation payee other ops others one another =>
    kept.apart first second reservation payee other ops others (reserved_of_started one)
      (reserved_of_started another)

/-- Every request a call may make keeps the accounts. -/
theorem Kept.serves (kept : Kept service world phases) {index : ℕ} {phase : Phase}
    (standing : phases[index]? = some phase) {request : Request} {answer : Answer request}
    {after : World} (asks : (calling service.maxRcPerOp).asks phase request)
    (served : serves service.limits world request answer after) :
    Kept service after (phases.set index
      ((calling service.maxRcPerOp).next phase request answer)) := by
  have unchanged := phases_unchanged standing
  cases request with
  | now =>
    obtain ⟨_, rfl⟩ := served
    exact unchanged.symm ▸ kept
  | wait =>
    obtain rfl := served
    exact unchanged.symm ▸ kept
  | ownerOf account =>
    obtain rfl := served
    exact unchanged.symm ▸ kept
  | send reservation transaction =>
    obtain rfl := served
    exact unchanged.symm ▸ kept
  | reserve payee ops time =>
    obtain ⟨answered, rfl⟩ := served
    exact kept.reserving standing payee ops time answered
  | sign reservation transaction =>
    obtain rfl := served
    obtain ⟨payee, ops, rfl, ceiling⟩ := asks
    cases answer with
    | error message =>
      exact kept.settled index (fun reservation payee ops impossible => by cases impossible)
    | ok signatures => exact kept.signing standing ceiling
  | commit reservation reverted =>
    obtain rfl := served
    have stepped := kept.extended world.time world.made (kept.accounted.commit reservation reverted)
      (extends_commit world.store reservation reverted)
    exact unchanged.symm ▸ stepped
  | release reservation =>
    obtain rfl := served
    have stepped := kept.extended world.time world.made (kept.accounted.release reservation)
      (extends_release world.store reservation)
    exact unchanged.symm ▸ stepped
  | recordRefusal category time =>
    obtain rfl := served
    have stepped := kept.extended world.time world.made
      (kept.accounted.recordRefusal category time) (extends_refl world.store)
    exact unchanged.symm ▸ stepped

end Kept

theorem kept_fresh (service : SponsorService) (time : ℕ) :
    Kept service (World.fresh time) [] where
  accounted := QuotaStore.accounted_empty
  once := List.nodup_nil
  ceiling := fun entry impossible => absurd impossible List.not_mem_nil
  reserved := fun index reservation payee ops impossible => by cases impossible
  apart := fun first second reservation payee other ops others impossible => by cases impossible

/-- The accounts are kept in every run of concurrent calls. -/
theorem kept_reached {service : SponsorService} {world : World} {calls : Calls}
    (reached : Reached service world calls) : ∃ phases, Kept service world phases := by
  obtain ⟨time, run⟩ := reached
  obtain ⟨phases, kept, _⟩ := Runtime.invariant_reached
    (fun world later phases kept drifts => by
      obtain ⟨time, _, rfl⟩ := drifts
      exact kept.extended time world.made kept.accounted (extends_refl world.store))
    (fun index world phases phase request answer after kept standing asks served =>
      ⟨trivial, kept.serves standing asks served⟩)
    (fun program world phases started kept => by
      obtain ⟨input, rfl⟩ := started
      exact ⟨.unreserved, follows_sponsor service input, kept.started⟩)
    (kept_fresh service time) Runtime.Standing.nil run
  exact ⟨phases, kept⟩

/-! ### The resources of a day -/

/-- The items at distinct positions add up to at most the sum of all. -/
theorem sum_positions_le {Item : Type} (share : Item → ℕ) (items : List Item)
    {positions : List ℕ} (distinct : positions.Nodup) :
    (positions.map fun position => (items[position]?.map share).getD 0).sum ≤
      (items.map share).sum := by
  have whole : ∀ items : List Item, (items.map share).sum =
      ∑ position ∈ Finset.range items.length, (items[position]?.map share).getD 0 := by
    intro items
    induction items with
    | nil => rfl
    | cons item rest inductionHypothesis =>
      rw [List.map_cons, List.sum_cons, inductionHypothesis, List.length_cons,
        Finset.sum_range_succ', Nat.add_comm]
      rfl
  rw [whole, ← List.sum_toFinset _ distinct]
  refine Finset.sum_le_sum_of_ne_zero fun position member positive => ?_
  by_contra outside
  rw [Finset.mem_range, not_lt] at outside
  rw [List.getElem?_eq_none outside] at positive
  exact positive rfl

/-- What a co-signed transaction may cost, if its reservation counts for the user's day. -/
def rcShare (store : QuotaStore) (user : String) (day : Day) (entry : ℕ × Json) : ℕ :=
  if (store.reservations[entry.1]?).any fun held =>
      decide (held.user = user ∧ utcDay held.time = day ∧ held.settled ≠ some .released) then
    (rcLimitOf entry.2).toOption.getD 0
  else 0

/-- The RC limits of the transactions co-signed for a payee on a day and not released. -/
def cosignedRc (world : World) (user : String) (day : Day) : ℕ :=
  (world.cosigned.map (rcShare world.store user day)).sum

theorem rcShare_le {service : SponsorService} {world : World} {phases : List Phase}
    (kept : Kept service world phases) (user : String) (day : Day) {entry : ℕ × Json}
    (member : entry ∈ world.cosigned) :
    rcShare world.store user day entry ≤ service.maxRcPerOp *
      ((world.store.reservations[entry.1]?.map (QuotaStore.heldShare user day)).getD 0) := by
  obtain ⟨held, found, ceiling⟩ := kept.ceiling entry member
  obtain ⟨rcLimit, parsed, bounded⟩ := ceiling.limit
  unfold rcShare QuotaStore.heldShare
  rw [found, parsed, Option.any_some, Option.map_some, Option.getD_some]
  by_cases counts : held.user = user ∧ utcDay held.time = day ∧ held.settled ≠ some .released
  · rw [if_pos (decide_eq_true counts), if_pos counts]
    exact bounded
  · rw [if_neg (fun counted => counts (of_decide_eq_true counted))]
    exact Nat.zero_le _

theorem cosignedRc_le {service : SponsorService} {world : World} {phases : List Phase}
    (kept : Kept service world phases) (user : String) (day : Day) :
    cosignedRc world user day ≤ service.maxRcPerOp * service.limits.dailyOps :=
  calc cosignedRc world user day
    _ ≤ (world.cosigned.map fun entry => service.maxRcPerOp *
          ((world.store.reservations[entry.1]?.map (QuotaStore.heldShare user day)).getD 0)).sum :=
        List.sum_le_sum fun entry member => rcShare_le kept user day member
    _ = service.maxRcPerOp * ((world.cosigned.map Prod.fst).map fun reservation =>
          (world.store.reservations[reservation]?.map (QuotaStore.heldShare user day)).getD 0).sum := by
        rw [List.sum_map_mul_left, List.map_map]
        rfl
    _ ≤ service.maxRcPerOp * world.store.heldOps user day :=
        Nat.mul_le_mul_left _ (sum_positions_le _ _ kept.once)
    _ ≤ service.maxRcPerOp * service.limits.dailyOps :=
        Nat.mul_le_mul_left _ (kept.accounted.bounded user day)

/-- Settling a reservation again, in either way, changes nothing. -/
structure SettledOnce (store : QuotaStore) : Prop where
  committed : ∀ reservation reverted again, (store.commit reservation reverted).commit reservation
    again = store.commit reservation reverted
  released : ∀ reservation, (store.release reservation).release reservation =
    store.release reservation
  refunded : ∀ reservation reverted, (store.commit reservation reverted).release reservation =
    store.commit reservation reverted
  charged : ∀ reservation reverted, (store.release reservation).commit reservation reverted =
    store.release reservation

theorem settledOnce (store : QuotaStore) : SettledOnce store where
  committed := fun _ reverted _ => QuotaStore.settleOnce_twice store
    fun held => QuotaStore.reservations_settle store held reverted
  released := fun reservation => QuotaStore.settleOnce_twice store
    fun held => QuotaStore.reservations_unhold store reservation held
  refunded := fun _ reverted => QuotaStore.settleOnce_twice store
    fun held => QuotaStore.reservations_settle store held reverted
  charged := fun reservation _ => QuotaStore.settleOnce_twice store
    fun held => QuotaStore.reservations_unhold store reservation held

/-- Once a reservation is settled, settling it in either way changes nothing in any later state. -/
def StaysSettled (service : SponsorService) (world : World) (calls : Calls) : Prop :=
  ∀ (later : World) (others : Calls),
    (runtime service.limits).Reaches (Started service) (world, calls) (later, others) →
      ∀ (reservation : ℕ) (held : Reservation), world.store.reservations[reservation]? = some held →
        held.settled.isSome = true → later.store.release reservation = later.store ∧
          ∀ reverted, later.store.commit reservation reverted = later.store

theorem staysSettled (service : SponsorService) (world : World) (calls : Calls) :
    StaysSettled service world calls := by
  intro later others reached reservation held found settled
  obtain ⟨last, stored, charge⟩ := extends_reached reached reservation held found
  have still : last.settled.isSome = true := (charge.settled settled).symm ▸ settled
  exact ⟨QuotaStore.settleOnce_settled _ stored still _ _,
    fun reverted => QuotaStore.settleOnce_settled _ stored still _ _⟩

section Sample

/-- Serve a request; the signer signs and the node answers with an empty receipt. -/
def sampleAct (limits : QuotaLimits) (world : World) :
    (request : Request) → Answer request × World
  | .now => (world.time, world)
  | .wait => ((), world)
  | .ownerOf _ => (.ok none, world)
  | .reserve payee ops time =>
    let result := world.store.reserve limits payee ops time
    (result.1, { world with
      store := result.2
      made := if result.1.toBool then world.made ++ [world.time] else world.made })
  | .sign reservation transaction =>
    (.ok ["signature", "sponsored"],
      { world with cosigned := world.cosigned ++ [(reservation, transaction)] })
  | .send _ _ => (.answered (some (.object [])), world)
  | .commit reservation reverted =>
    ((), { world with store := world.store.commit reservation reverted })
  | .release reservation => ((), { world with store := world.store.release reservation })
  | .recordRefusal category time =>
    ((), { world with store := world.store.recordRefusal category time })

theorem sampleAct_serves (limits : QuotaLimits) (world : World) (request : Request) :
    serves limits world request (sampleAct limits world request).1
      (sampleAct limits world request).2 := by
  cases request with
  | now => exact ⟨rfl, rfl⟩
  | reserve payee ops time => exact ⟨rfl, rfl⟩
  | _ => rfl

abbrev SampleTurn := Runtime.Turn Request Answer World ServiceFailure SponsorResponse

/-- A call that goes on. -/
def goOn (limits : QuotaLimits) (index : ℕ) : SampleTurn := .resume index (sampleAct limits)

/-- What some turns make of a service that was just started. -/
def played (service : SponsorService) (turns : List SampleTurn) : World × Calls :=
  Runtime.play waits (sampleAct service.limits) (World.fresh 0, []) turns

theorem reached_played {service : SponsorService} {turns : List SampleTurn}
    (allowed : ∀ turn ∈ turns, turn.Allowed (runtime service.limits) (Started service)) :
    Reached service (played service turns).1 (played service turns).2 :=
  ⟨0, Runtime.reaches_play (fun world request _ => sampleAct_serves service.limits world request)
    turns allowed _⟩

theorem allowed_goOn (service : SponsorService) (index : ℕ) :
    (goOn service.limits index).Allowed (runtime service.limits) (Started service) :=
  fun world request _ => sampleAct_serves service.limits world request

/-- A call whose transaction the node rejects. -/
def reject (limits : QuotaLimits) (index : ℕ) : SampleTurn :=
  .resume index fun world request => match request with
    | .send _ _ => (.rejected ⟨"insufficient rc", none⟩, world)
    | other => sampleAct limits world other

theorem allowed_reject (service : SponsorService) (index : ℕ) :
    (reject service.limits index).Allowed (runtime service.limits) (Started service) := by
  intro world request _
  cases request with
  | now => exact ⟨rfl, rfl⟩
  | reserve payee ops time => exact ⟨rfl, rfl⟩
  | _ => rfl

/-- Two calls of one payee at once: the node takes the transaction of the second one and rejects
that of the first one. -/
def sampleTurns : List SampleTurn :=
  [.start (sponsor sampleService sampleTransaction),
    .start (sponsor sampleService sampleTransaction), goOn sampleService.limits 0,
    goOn sampleService.limits 1, goOn sampleService.limits 0, goOn sampleService.limits 1,
    goOn sampleService.limits 1, goOn sampleService.limits 0, goOn sampleService.limits 1,
    reject sampleService.limits 0]

end Sample

end OpenSocial.Sponsor

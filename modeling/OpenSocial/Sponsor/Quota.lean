/-
This file models the sponsor's quota store: the daily usage rows, the counters,
the burst windows in memory, and the reservations that are committed or released
later.

A UTC day is the number of days since the epoch. The objects the source tells
apart by identity, a reservation and the burst entry it pushed, are known by the
position of the reservation in the order they were handed out.
-/

import OpenSocial.Library.Store
import OpenSocial.Sdk.Sponsor

namespace OpenSocial.Sponsor

open Library Sdk

/-! ### Data -/

structure QuotaLimits where
  dailyOps : ℕ
  burstOps : ℕ
  burstWindowSec : ℕ

structure QuotaRemaining where
  daily : ℕ
  burst : ℕ
  deriving DecidableEq

/-- `QuotaRefusal`; its category is always `quota_exceeded`. -/
structure QuotaRefusal where
  message : String
  retryAfterSec : ℕ
  remaining : QuotaRemaining
  deriving DecidableEq

/-- A row of `usage`. -/
structure UsageRow where
  ops : ℕ
  txs : ℕ
  reverted : ℕ
  updatedAt : ℕ
  deriving DecidableEq

/-- The keys of `counters`. -/
inductive CounterKey where
  | accepted
  | acceptedOps
  | reverted
  | refused (category : SponsorErrorCategory)
  deriving DecidableEq

/-- An entry of a burst window, with the reservation that pushed it. -/
structure BurstEntry where
  reservation : ℕ
  time : ℕ
  ops : ℕ
  deriving DecidableEq

/-- How a reservation was settled. -/
inductive Settlement where
  | committed
  | released
  deriving DecidableEq

/-- What a reservation holds on to: its user, operations and time, and whether it is settled. -/
structure Reservation where
  user : String
  ops : ℕ
  time : ℕ
  settled : Option Settlement
  deriving DecidableEq

/-- The number of days since the epoch. -/
abbrev Day := ℕ

def utcDay (time : ℕ) : Day := time / 86400000

structure QuotaStore where
  usage : Store (String × Day) UsageRow
  counters : Store (Day × CounterKey) ℕ
  bursts : Store String (List BurstEntry)
  reservations : List Reservation

namespace QuotaStore

/-- A store without rows. -/
def empty : QuotaStore := ⟨∅, ∅, ∅, []⟩

/-! ### Allowances -/

/-- Operations counted for the user on the day of a time. -/
def dailyOps (store : QuotaStore) (user : String) (time : ℕ) : ℕ :=
  ((store.usage.get (user, utcDay time)).map UsageRow.ops).getD 0

/-- The entries of the user's window that are younger than its length. -/
def burstWindow (limits : QuotaLimits) (store : QuotaStore) (user : String) (time : ℕ) :
    List BurstEntry :=
  ((store.bursts.get user).getD []).filter fun entry =>
    time < entry.time + limits.burstWindowSec * 1000

/-- Keep a window; an empty one is dropped. -/
def setWindow (store : QuotaStore) (user : String) (window : List BurstEntry) : QuotaStore :=
  { store with bursts :=
      if window = [] then store.bursts.remove user else store.bursts.put user window }

def totalOps (window : List BurstEntry) : ℕ :=
  (window.map BurstEntry.ops).sum

/-- A quotient of natural numbers, rounded up and at least one. -/
def waitSeconds (milliseconds : ℕ) : ℕ :=
  max 1 ((milliseconds + 999) / 1000)

/-- `check`, without its pruning of the window. -/
def decide (limits : QuotaLimits) (store : QuotaStore) (user : String) (ops time : ℕ) :
    Except QuotaRefusal QuotaRemaining :=
  let daily := store.dailyOps user time
  let window := store.burstWindow limits user time
  let burst := totalOps window
  let remaining : QuotaRemaining := ⟨limits.dailyOps - daily, limits.burstOps - burst⟩
  if limits.dailyOps < daily + ops then
    .error
      { message := "daily quota of " ++ toString limits.dailyOps ++ " operations reached (" ++
          toString daily ++ " used, " ++ toString ops ++ " requested)"
        retryAfterSec := waitSeconds ((utcDay time + 1) * 86400000 - time)
        remaining := remaining }
  else if limits.burstOps < burst + ops then
    .error
      { message := "burst quota of " ++ toString limits.burstOps ++ " operations per " ++
          toString limits.burstWindowSec ++ "s reached"
        retryAfterSec := waitSeconds ((window.head?.map BurstEntry.time).getD time +
          limits.burstWindowSec * 1000 - time)
        remaining := remaining }
  else .ok remaining

/-- `check`: the decision, in a store whose window is pruned. -/
def check (limits : QuotaLimits) (store : QuotaStore) (user : String) (ops time : ℕ) :
    Except QuotaRefusal QuotaRemaining × QuotaStore :=
  (store.decide limits user ops time,
    store.setWindow user (store.burstWindow limits user time))

/-! ### Writes -/

def bump (store : QuotaStore) (day : Day) (key : CounterKey) (amount : ℕ) : QuotaStore :=
  { store with counters :=
      store.counters.put (day, key) (((store.counters.get (day, key)).getD 0) + amount) }

/-- Charge operations to the user's day row and burst window. -/
def hold (store : QuotaStore) (user : String) (ops time : ℕ) : QuotaStore :=
  let row := ((store.usage.get (user, utcDay time)).getD ⟨0, 0, 0, time⟩)
  { store with
    usage := store.usage.put (user, utcDay time) { row with ops := row.ops + ops, updatedAt := time }
    bursts := store.bursts.put user
      ((store.bursts.get user).getD [] ++ [⟨store.reservations.length, time, ops⟩]) }

/-- Give the operations of a reservation back; a row that never carried a transaction is dropped. -/
def unhold (store : QuotaStore) (reservation : ℕ) (held : Reservation) : QuotaStore :=
  let key := (held.user, utcDay held.time)
  let returned := match store.usage.get key with
    | none => store.usage
    | some row =>
      if row.ops - held.ops = 0 ∧ row.txs = 0 then store.usage.remove key
      else store.usage.put key { row with ops := row.ops - held.ops, updatedAt := held.time }
  let store := { store with usage := returned }
  match store.bursts.get held.user with
  | none => store
  | some window =>
    store.setWindow held.user (window.eraseP fun entry => entry.reservation == reservation)

/-- Add the outcome of a broadcast to a row whose operations were already held. -/
def settle (store : QuotaStore) (held : Reservation) (reverted : Bool) : QuotaStore :=
  let day := utcDay held.time
  let row := ((store.usage.get (held.user, day)).getD ⟨0, 0, 0, held.time⟩)
  let settled := { row with
    txs := row.txs + 1
    reverted := row.reverted + reverted.toNat
    updatedAt := held.time }
  let store := { store with usage := store.usage.put (held.user, day) settled }
  let store := (store.bump day .accepted 1).bump day .acceptedOps held.ops
  if reverted then store.bump day .reverted 1 else store

/-! ### Reservations -/

/-- `reserve`: check and charge at once; the reservation handed out is known by its position. -/
def reserve (limits : QuotaLimits) (store : QuotaStore) (user : String) (ops time : ℕ) :
    Except QuotaRefusal (ℕ × QuotaRemaining) × QuotaStore :=
  match store.check limits user ops time with
  | (.error refusal, checked) => (.error refusal, checked)
  | (.ok remaining, checked) =>
    let held := checked.hold user ops time
    (.ok (store.reservations.length, ⟨remaining.daily - ops, remaining.burst - ops⟩),
      { held with reservations := held.reservations ++ [⟨user, ops, time, none⟩] })

/-- Settle a reservation that is not settled yet. -/
def settleOnce (store : QuotaStore) (reservation : ℕ) (settlement : Settlement)
    (effect : QuotaStore → Reservation → QuotaStore) : QuotaStore :=
  match store.reservations[reservation]? with
  | some held =>
    if held.settled.isSome then store
    else
      let after := effect store held
      { after with reservations :=
          after.reservations.set reservation { held with settled := some settlement } }
  | none => store

/-- `commit`: the transaction was broadcast. -/
def commit (store : QuotaStore) (reservation : ℕ) (reverted : Bool) : QuotaStore :=
  store.settleOnce reservation .committed fun store held => store.settle held reverted

/-- `release`: nothing was broadcast. -/
def release (store : QuotaStore) (reservation : ℕ) : QuotaStore :=
  store.settleOnce reservation .released fun store held => store.unhold reservation held

/-- `recordRefusal`. -/
def recordRefusal (store : QuotaStore) (category : SponsorErrorCategory) (time : ℕ) : QuotaStore :=
  store.bump (utcDay time) (.refused category) 1

/-! ### What each operation does -/

section Operations

variable (limits : QuotaLimits) (store : QuotaStore)

@[simp] theorem get_setWindow (user other : String) (window : List BurstEntry) :
    ((store.setWindow user window).bursts.get other).getD [] =
      if other = user then window else (store.bursts.get other).getD [] := by
  unfold setWindow
  dsimp only
  by_cases empty : window = []
  · rw [if_pos empty, Store.get_remove]
    split
    · exact empty.symm
    · rfl
  · rw [if_neg empty, Store.get_put]
    split
    · rfl
    · rfl

/-- A reservation is refused, or fits both allowances and is charged at once. -/
inductive Reserving (user : String) (ops time : ℕ) :
    Except QuotaRefusal (ℕ × QuotaRemaining) × QuotaStore → Prop
  | refused (refusal : QuotaRefusal) :
      Reserving user ops time
        (.error refusal, store.setWindow user (store.burstWindow limits user time))
  | held (remaining : QuotaRemaining)
      (daily : store.dailyOps user time + ops ≤ limits.dailyOps)
      (burst : totalOps (store.burstWindow limits user time) + ops ≤ limits.burstOps) :
      Reserving user ops time
        (.ok (store.reservations.length, remaining),
          { usage := ((store.setWindow user (store.burstWindow limits user time)).hold user ops
              time).usage
            counters := store.counters
            bursts := ((store.setWindow user (store.burstWindow limits user time)).hold user ops
              time).bursts
            reservations := store.reservations ++ [⟨user, ops, time, none⟩] })

theorem reserve_cases (user : String) (ops time : ℕ) :
    Reserving limits store user ops time (store.reserve limits user ops time) := by
  unfold reserve check
  cases decided : store.decide limits user ops time with
  | error refusal => exact .refused refusal
  | ok remaining =>
    unfold decide at decided
    dsimp only at decided
    split at decided
    · cases decided
    · next daily =>
      split at decided
      · cases decided
      · next burst => exact .held _ (not_lt.mp daily) (not_lt.mp burst)

/-- Settling does nothing, or has its effect on a reservation that was open. -/
inductive Settling (reservation : ℕ) (settlement : Settlement)
    (effect : QuotaStore → Reservation → QuotaStore) : QuotaStore → Prop
  | nothing : Settling reservation settlement effect store
  | settled (held : Reservation) (found : store.reservations[reservation]? = some held)
      (opened : held.settled = none) :
      Settling reservation settlement effect
        { effect store held with
          reservations := (effect store held).reservations.set reservation
            { held with settled := some settlement } }

theorem settleOnce_cases (reservation : ℕ) (settlement : Settlement)
    (effect : QuotaStore → Reservation → QuotaStore) :
    Settling store reservation settlement effect
      (store.settleOnce reservation settlement effect) := by
  unfold settleOnce
  split
  · next held found =>
    split
    · exact .nothing
    · next opened =>
      exact .settled held found (Option.not_isSome_iff_eq_none.mp opened)
  · exact .nothing

theorem reservations_settle (held : Reservation) (reverted : Bool) :
    (store.settle held reverted).reservations = store.reservations := by
  cases reverted <;> rfl

theorem reservations_unhold (reservation : ℕ) (held : Reservation) :
    (store.unhold reservation held).reservations = store.reservations := by
  unfold unhold
  dsimp only
  split <;> rfl

/-- Once a reservation is settled, settling it again in either way changes nothing. -/
theorem settleOnce_settled {reservation : ℕ} {held : Reservation}
    (found : store.reservations[reservation]? = some held) (settled : held.settled.isSome = true)
    (settlement : Settlement) (effect : QuotaStore → Reservation → QuotaStore) :
    store.settleOnce reservation settlement effect = store := by
  unfold settleOnce
  rw [found]
  exact if_pos settled

theorem settleOnce_twice {reservation : ℕ} {first second : Settlement}
    {effect later : QuotaStore → Reservation → QuotaStore}
    (keeps : ∀ held, (effect store held).reservations = store.reservations) :
    (store.settleOnce reservation first effect).settleOnce reservation second later =
      store.settleOnce reservation first effect := by
  cases given : store.reservations[reservation]? with
  | none =>
    have nothing : ∀ settlement effect, store.settleOnce reservation settlement effect = store := by
      intro settlement effect
      unfold settleOnce
      rw [given]
    rw [nothing, nothing]
  | some held =>
    by_cases settled : held.settled.isSome = true
    · rw [settleOnce_settled store given settled, settleOnce_settled store given settled]
    · have made : store.settleOnce reservation first effect =
          { effect store held with
            reservations := (effect store held).reservations.set reservation
              { held with settled := some first } } := by
        unfold settleOnce
        rw [given]
        exact if_neg settled
      have inside : reservation < store.reservations.length :=
        (List.getElem?_eq_some_iff.mp given).1
      have settledNow : (store.settleOnce reservation first effect).reservations[reservation]? =
          some { held with settled := some first } := by
        rw [made]
        show ((effect store held).reservations.set _ _)[reservation]? = _
        rw [keeps]
        exact List.getElem?_set_self inside
      exact settleOnce_settled _ settledNow rfl second later

end Operations

end QuotaStore

end OpenSocial.Sponsor

/-
This file proves when the burst limit holds in real time.

A call takes its time on arrival and reserves with it after a validation of any
length, so an entry of the burst window may be older than the reservation it
stands for. The limit holds in every run in which a call that reserves arrived
less than the window's length after the call behind every reservation of its
payee that is young in real time.
-/

import OpenSocial.Sponsor.Accounting

namespace OpenSocial.Sponsor

open Library Sdk

/-! ### Reservations in a span of time -/

/-- The length of the window in milliseconds. -/
def QuotaLimits.window (limits : QuotaLimits) : ℕ := limits.burstWindowSec * 1000

/-- What a reservation counts in a span: its operations, if it was made in it and not released. -/
def spanShare (world : World) (user : String) (start length reservation : ℕ) : ℕ :=
  match world.store.reservations[reservation]?, world.made[reservation]? with
  | some held, some made =>
    if held.user = user ∧ held.settled ≠ some .released ∧ start < made ∧ made ≤ start + length then
      held.ops
    else 0
  | _, _ => 0

/-- The operations of the user's reservations made after `start` and at most `length` later. -/
def spanOps (world : World) (user : String) (start length : ℕ) : ℕ :=
  ∑ reservation ∈ Finset.range world.store.reservations.length,
    spanShare world user start length reservation

/-- No span as long as the window has more operations than the burst allowance. -/
def BurstBounded (limits : QuotaLimits) (world : World) : Prop :=
  ∀ user start, spanOps world user start limits.window ≤ limits.burstOps

/-- A reservation that is not released and was made, in real time, less than the window's length
ago. -/
def Young (limits : QuotaLimits) (world : World) (reservation : ℕ) (held : Reservation) : Prop :=
  world.store.reservations[reservation]? = some held ∧ held.settled ≠ some .released ∧
    ∃ made, world.made[reservation]? = some made ∧ world.time < made + limits.window

/-- A call that arrived at a time reserves for a payee less than the window's length after the
arrivals of all the calls behind the payee's young reservations. -/
def Current (limits : QuotaLimits) (world : World) (payee : String) (time : ℕ) : Prop :=
  ∀ (reservation : ℕ) (held : Reservation), Young limits world reservation held →
    held.user = payee → time < held.time + limits.window

/-- The entries kept for a user. -/
def entriesOf (store : QuotaStore) (user : String) : List BurstEntry :=
  (store.bursts.get user).getD []

/-- An entry stands for a reservation. -/
def StandsFor (entry : BurstEntry) (reservation : ℕ) (held : Reservation) : Prop :=
  entry.reservation = reservation ∧ entry.time = held.time

/-- The windows hold entries of distinct reservations, with their operations, among them every young
one, and the limit holds so far. -/
structure BurstKept (limits : QuotaLimits) (world : World) : Prop where
  aligned : world.made.length = world.store.reservations.length
  past : ∀ made ∈ world.made, made ≤ world.time
  entries : ∀ user, ∀ entry ∈ entriesOf world.store user, ∃ held,
    world.store.reservations[entry.reservation]? = some held ∧ held.ops = entry.ops
  distinct : ∀ user, ((entriesOf world.store user).map BurstEntry.reservation).Nodup
  present : ∀ reservation held, Young limits world reservation held →
    ∃ entry ∈ entriesOf world.store held.user, StandsFor entry reservation held
  bounded : BurstBounded limits world

section Span

variable {limits : QuotaLimits} {world : World}

theorem spanShare_of_found {user : String} {start length reservation : ℕ} {held : Reservation}
    {made : ℕ} (found : world.store.reservations[reservation]? = some held)
    (given : world.made[reservation]? = some made) :
    spanShare world user start length reservation =
      if held.user = user ∧ held.settled ≠ some .released ∧ start < made ∧
        made ≤ start + length then held.ops else 0 := by
  unfold spanShare
  rw [found, given]

/-- A share that counts is that of a reservation made in the span. -/
theorem found_of_spanShare {user : String} {start length reservation : ℕ}
    (counts : spanShare world user start length reservation ≠ 0) :
    ∃ held made, world.store.reservations[reservation]? = some held ∧
      world.made[reservation]? = some made ∧ held.user = user ∧
        held.settled ≠ some .released ∧ start < made ∧ made ≤ start + length := by
  unfold spanShare at counts
  split at counts
  · next held made found given =>
    split at counts
    · next inside => exact ⟨held, made, found, given, inside⟩
    · exact absurd rfl counts
  · exact absurd rfl counts

theorem spanShare_le {user : String} {start length reservation : ℕ} {held : Reservation}
    (found : world.store.reservations[reservation]? = some held) :
    spanShare world user start length reservation ≤ held.ops := by
  by_cases counts : spanShare world user start length reservation = 0
  · rw [counts]
    exact Nat.zero_le _
  · obtain ⟨other, made, same, given, inside⟩ := found_of_spanShare counts
    obtain rfl := Option.some.inj (found.symm.trans same)
    rw [spanShare_of_found found given, if_pos inside]

/-- The sum of a span is a sum over any window that has all of its reservations. -/
theorem spanOps_le_window {window : List BurstEntry} {user : String} {start length : ℕ}
    (distinct : (window.map BurstEntry.reservation).Nodup)
    (entries : ∀ entry ∈ window, ∃ held,
      world.store.reservations[entry.reservation]? = some held ∧ held.ops = entry.ops)
    (covers : ∀ reservation, spanShare world user start length reservation ≠ 0 →
      ∃ entry ∈ window, entry.reservation = reservation) :
    spanOps world user start length ≤ QuotaStore.totalOps window :=
  calc spanOps world user start length
    _ ≤ ∑ reservation ∈ (window.map BurstEntry.reservation).toFinset,
          spanShare world user start length reservation := by
        refine Finset.sum_le_sum_of_ne_zero fun reservation _ counts => ?_
        obtain ⟨entry, member, rfl⟩ := covers reservation counts
        exact List.mem_toFinset.mpr (List.mem_map_of_mem member)
    _ = ((window.map BurstEntry.reservation).map (spanShare world user start length)).sum :=
        List.sum_toFinset _ distinct
    _ ≤ QuotaStore.totalOps window := by
        rw [List.map_map]
        refine List.sum_le_sum fun entry member => ?_
        obtain ⟨held, found, same⟩ := entries entry member
        rw [← same]
        exact spanShare_le found

end Span

/-! ### What the operations do to the windows -/

section Windows

variable {limits : QuotaLimits} {store : QuotaStore}

theorem entriesOf_setWindow (user other : String) (window : List BurstEntry) :
    entriesOf (store.setWindow user window) other =
      if other = user then window else entriesOf store other :=
  QuotaStore.get_setWindow store user other window

/-- Releasing a reservation leaves every window a part of what it was. -/
theorem entriesOf_unhold (reservation : ℕ) (held : Reservation) (user : String) :
    (entriesOf (store.unhold reservation held) user).Sublist (entriesOf store user) := by
  have bursts : ∀ usage, entriesOf { store with usage := usage } user = entriesOf store user :=
    fun usage => rfl
  unfold QuotaStore.unhold
  dsimp only
  split
  · exact List.Sublist.refl _
  · next window found =>
    rw [entriesOf_setWindow, bursts]
    split
    · next same =>
      subst same
      unfold entriesOf
      rw [found]
      exact List.eraseP_sublist
    · exact List.Sublist.refl _

/-- Releasing a reservation takes no other one's entry. -/
theorem mem_entriesOf_unhold {reservation : ℕ} {held : Reservation} {user : String}
    {entry : BurstEntry} (member : entry ∈ entriesOf store user)
    (other : entry.reservation ≠ reservation) :
    entry ∈ entriesOf (store.unhold reservation held) user := by
  have bursts : ∀ usage, entriesOf { store with usage := usage } user = entriesOf store user :=
    fun usage => rfl
  unfold QuotaStore.unhold
  dsimp only
  split
  · exact member
  · next window found =>
    rw [entriesOf_setWindow, bursts]
    split
    · next same =>
      subst same
      unfold entriesOf at member
      rw [found] at member
      refine (List.mem_eraseP_of_neg fun equal => ?_).mpr member
      exact other (beq_iff_eq.mp equal)
    · exact member

theorem entriesOf_settle (held : Reservation) (reverted : Bool) (user : String) :
    entriesOf (store.settle held reverted) user = entriesOf store user := by
  cases reverted <;> rfl

theorem entriesOf_hold (user : String) (ops time : ℕ) (other : String) :
    entriesOf (store.hold user ops time) other =
      if other = user then entriesOf store user ++ [⟨store.reservations.length, time, ops⟩]
      else entriesOf store other := by
  unfold entriesOf QuotaStore.hold
  dsimp only
  rw [Store.get_put]
  split
  · rfl
  · rfl

theorem mem_burstWindow {user : String} {time : ℕ} {entry : BurstEntry} :
    entry ∈ store.burstWindow limits user time ↔
      entry ∈ entriesOf store user ∧ time < entry.time + limits.window := by
  unfold QuotaStore.burstWindow entriesOf QuotaLimits.window
  rw [List.mem_filter, decide_eq_true_iff]

theorem burstWindow_sublist (user : String) (time : ℕ) :
    (store.burstWindow limits user time).Sublist (entriesOf store user) :=
  List.filter_sublist

end Windows

/-! ### Steps -/

section Steps

variable {limits : QuotaLimits} {world : World}

/-- A store with the same charges, as many reservations and fewer entries. -/
theorem BurstKept.reduced (kept : BurstKept limits world) {store : QuotaStore}
    (extended : Extends world.store store)
    (counted : store.reservations.length = world.store.reservations.length)
    (sublist : ∀ user, (entriesOf store user).Sublist (entriesOf world.store user))
    (released : ∀ (reservation : ℕ) (held later : Reservation),
      world.store.reservations[reservation]? = some held →
        store.reservations[reservation]? = some later → later.settled ≠ some .released →
          held.settled ≠ some .released)
    (remains : ∀ (reservation : ℕ) (held : Reservation) (entry : BurstEntry),
      Young limits world reservation held → StandsFor entry reservation held →
        (∀ later, store.reservations[reservation]? = some later →
          later.settled ≠ some .released) →
        entry ∈ entriesOf world.store held.user → entry ∈ entriesOf store held.user) :
    BurstKept limits { world with store := store } where
  aligned := kept.aligned.trans counted.symm
  past := kept.past
  entries := by
    intro user entry member
    obtain ⟨held, found, same⟩ := kept.entries user entry ((sublist user).subset member)
    obtain ⟨later, stored, charge⟩ := extended _ held found
    exact ⟨later, stored, charge.ops.trans same⟩
  distinct := fun user => (kept.distinct user).sublist ((sublist user).map _)
  present := by
    rintro reservation later ⟨stored, unreleased, made, given, young⟩
    have position : reservation < world.store.reservations.length :=
      counted ▸ (List.getElem?_eq_some_iff.mp stored).1
    have found := List.getElem?_eq_getElem position
    obtain ⟨other, again, charge⟩ := extended _ _ found
    obtain rfl := Option.some.inj (stored.symm.trans again)
    have before : Young limits world reservation world.store.reservations[reservation] :=
      ⟨found, released reservation _ _ found stored unreleased, made, given, young⟩
    obtain ⟨entry, member, stands⟩ := kept.present _ _ before
    rw [charge.user]
    refine ⟨entry, remains _ _ entry before stands (fun last same => ?_) member,
      stands.1, stands.2.trans charge.time.symm⟩
    obtain rfl := Option.some.inj (stored.symm.trans same)
    exact unreleased
  bounded := by
    intro user start
    refine le_trans ?_ (kept.bounded user start)
    unfold spanOps
    dsimp only
    rw [counted]
    refine Finset.sum_le_sum fun reservation _ => ?_
    by_cases counts : spanShare { world with store := store } user start limits.window
        reservation = 0
    · rw [counts]
      exact Nat.zero_le _
    · obtain ⟨later, made, stored, given, owner, unreleased, inside⟩ := found_of_spanShare counts
      have position : reservation < world.store.reservations.length :=
        counted ▸ (List.getElem?_eq_some_iff.mp stored).1
      have found := List.getElem?_eq_getElem position
      obtain ⟨other, again, charge⟩ := extended _ _ found
      obtain rfl := Option.some.inj (stored.symm.trans again)
      have before := released reservation _ _ found stored unreleased
      have mine : world.store.reservations[reservation].user = user := charge.user.symm.trans owner
      rw [spanShare_of_found stored given, if_pos ⟨owner, unreleased, inside⟩,
        spanShare_of_found found given, if_pos ⟨mine, before, inside⟩, charge.ops]

theorem BurstKept.settledOnce (kept : BurstKept limits world) (reservation : ℕ)
    (settlement : Settlement) {effect : QuotaStore → Reservation → QuotaStore}
    (keeps : ∀ held, (effect world.store held).reservations = world.store.reservations)
    (sublist : ∀ held user, (entriesOf (effect world.store held) user).Sublist
      (entriesOf world.store user))
    (remains : ∀ held user, ∀ entry ∈ entriesOf world.store user,
      (settlement = .released → entry.reservation ≠ reservation) →
        entry ∈ entriesOf (effect world.store held) user) :
    BurstKept limits
      { world with store := world.store.settleOnce reservation settlement effect } := by
  have extended := extends_settleOnce world.store reservation settlement keeps
  have made := QuotaStore.settleOnce_cases world.store reservation settlement effect
  generalize world.store.settleOnce reservation settlement effect = after at made extended ⊢
  cases made with
  | nothing => exact kept
  | settled held found opened =>
    refine kept.reduced extended ?_ (sublist held) ?_ ?_
    · show ((effect world.store held).reservations.set _ _).length = _
      rw [List.length_set, keeps]
    · intro other before later given stored unreleased
      by_cases same : before.settled.isSome = true
      · obtain ⟨again, standing, charge⟩ := extended other before given
        obtain rfl := Option.some.inj (stored.symm.trans standing)
        rw [← charge.settled same]
        exact unreleased
      · rw [Option.not_isSome_iff_eq_none.mp same]
        exact (Option.some_ne_none _).symm
    · rintro other before entry _ ⟨named, _⟩ unreleased member
      refine remains held before.user entry member fun freed same => ?_
      refine unreleased { held with settled := some settlement } ?_ (congrArg some freed)
      rw [← named, same]
      have position := (List.getElem?_eq_some_iff.mp found).1
      exact List.getElem?_set_self (by rw [keeps]; exact position)

/-! ### Reserving -/

variable {payee : String} {ops time : ℕ}

variable (limits world payee ops time) in
/-- The world after a reservation was made now. -/
def World.reserved : World where
  __ := world
  store :=
    { usage := ((world.store.setWindow payee (world.store.burstWindow limits payee time)).hold payee
        ops time).usage
      counters := world.store.counters
      bursts := ((world.store.setWindow payee (world.store.burstWindow limits payee time)).hold payee
        ops time).bursts
      reservations := world.store.reservations ++ [⟨payee, ops, time, none⟩] }
  made := world.made ++ [world.time]

theorem entriesOf_reserved (user : String) :
    entriesOf (world.reserved limits payee ops time).store user =
      if user = payee then
        world.store.burstWindow limits payee time ++ [⟨world.store.reservations.length, time, ops⟩]
      else entriesOf world.store user := by
  refine (entriesOf_hold payee ops time user).trans ?_
  split
  · rw [entriesOf_setWindow, if_pos rfl]
    rfl
  · next other => rw [entriesOf_setWindow, if_neg other]

/-- The reservations made before are where they were, and the new one is the last. -/
theorem reservation_reserved {reservation : ℕ} {held : Reservation} {made : ℕ}
    (aligned : world.made.length = world.store.reservations.length)
    (stored : (world.reserved limits payee ops time).store.reservations[reservation]? = some held)
    (given : (world.reserved limits payee ops time).made[reservation]? = some made) :
    (world.store.reservations[reservation]? = some held ∧ world.made[reservation]? = some made) ∨
      (reservation = world.store.reservations.length ∧ held = ⟨payee, ops, time, none⟩) := by
  change (world.store.reservations ++ [_])[reservation]? = _ at stored
  change (world.made ++ [world.time])[reservation]? = _ at given
  by_cases older : reservation < world.store.reservations.length
  · rw [List.getElem?_append_left older] at stored
    rw [List.getElem?_append_left (aligned ▸ older)] at given
    exact .inl ⟨stored, given⟩
  · have position := (List.getElem?_eq_some_iff.mp stored).1
    rw [List.length_append, List.length_singleton] at position
    obtain rfl : reservation = world.store.reservations.length := by omega
    rw [List.getElem?_concat_length] at stored
    exact .inr ⟨rfl, (Option.some.inj stored).symm⟩

/-- A reservation made now joins the spans that cover now. -/
theorem spanOps_reserved (aligned : world.made.length = world.store.reservations.length)
    (user : String) (start length : ℕ) :
    spanOps (world.reserved limits payee ops time) user start length =
      if payee = user ∧ start < world.time ∧ world.time ≤ start + length then
        spanOps world user start length + ops
      else spanOps world user start length := by
  have counted : (world.reserved limits payee ops time).store.reservations.length =
      world.store.reservations.length + 1 := List.length_append
  unfold spanOps
  rw [counted, Finset.sum_range_succ]
  have old : ∀ reservation ∈ Finset.range world.store.reservations.length,
      spanShare (world.reserved limits payee ops time) user start length reservation =
        spanShare world user start length reservation := by
    intro reservation member
    have inside := Finset.mem_range.mp member
    unfold spanShare World.reserved
    dsimp only
    rw [List.getElem?_append_left inside, List.getElem?_append_left (aligned ▸ inside)]
  rw [Finset.sum_congr rfl old]
  have now : (world.reserved limits payee ops time).made[world.store.reservations.length]? =
      some world.time := by
    rw [← aligned]
    exact List.getElem?_concat_length
  have newest : (world.reserved limits payee ops time).store.reservations[
      world.store.reservations.length]? = some ⟨payee, ops, time, none⟩ :=
    List.getElem?_concat_length
  rw [spanShare_of_found newest now]
  by_cases covers : payee = user ∧ start < world.time ∧ world.time ≤ start + length
  · rw [if_pos covers, if_pos ⟨covers.1, (Option.some_ne_none _).symm, covers.2⟩]
  · rw [if_neg covers, if_neg (fun both => covers ⟨both.1, both.2.2⟩), Nat.add_zero]

/-- The window a current call reserves against has the entry of every young reservation of the
payee. -/
theorem Current.windowed (current : Current limits world payee time) {reservation : ℕ}
    {held : Reservation} {entry : BurstEntry} (young : Young limits world reservation held)
    (stands : StandsFor entry reservation held) (owner : held.user = payee)
    (member : entry ∈ entriesOf world.store held.user) :
    entry ∈ world.store.burstWindow limits payee time := by
  have fresh := current reservation held young owner
  rw [← stands.2] at fresh
  exact mem_burstWindow.mpr ⟨owner ▸ member, fresh⟩

theorem BurstKept.earlier (kept : BurstKept limits world) {user : String} {entry : BurstEntry}
    (member : entry ∈ entriesOf world.store user) :
    entry.reservation < world.store.reservations.length := by
  obtain ⟨held, found, _⟩ := kept.entries user entry member
  exact (List.getElem?_eq_some_iff.mp found).1

theorem BurstKept.entries_reserved (kept : BurstKept limits world) (user : String)
    (entry : BurstEntry)
    (member : entry ∈ entriesOf (world.reserved limits payee ops time).store user) :
    ∃ held, (world.reserved limits payee ops time).store.reservations[entry.reservation]? =
      some held ∧ held.ops = entry.ops := by
  have old : entry ∈ entriesOf world.store user → ∃ held,
      (world.reserved limits payee ops time).store.reservations[entry.reservation]? = some held ∧
        held.ops = entry.ops := by
    intro before
    obtain ⟨held, found, same⟩ := kept.entries user entry before
    exact ⟨held, (List.getElem?_append_left (kept.earlier before)).trans found, same⟩
  rw [entriesOf_reserved] at member
  split at member
  · next same =>
    subst same
    rcases List.mem_append.mp member with before | new
    · exact old ((burstWindow_sublist user time).subset before)
    · rw [List.mem_singleton] at new
      subst new
      exact ⟨_, List.getElem?_concat_length, rfl⟩
  · exact old member

theorem BurstKept.distinct_reserved (kept : BurstKept limits world) (user : String) :
    ((entriesOf (world.reserved limits payee ops time).store user).map
      BurstEntry.reservation).Nodup := by
  rw [entriesOf_reserved]
  split
  · next same =>
    subst same
    rw [List.map_append, List.map_singleton, List.nodup_append]
    refine ⟨(kept.distinct user).sublist ((burstWindow_sublist user time).map _),
      List.nodup_singleton _, fun first member second single equal => ?_⟩
    rw [List.mem_singleton] at single
    rw [equal, single] at member
    obtain ⟨entry, before, same⟩ := List.mem_map.mp member
    have earlier := kept.earlier ((burstWindow_sublist user time).subset before)
    exact absurd (same ▸ earlier) (lt_irrefl _)
  · exact kept.distinct user

theorem BurstKept.present_reserved (kept : BurstKept limits world)
    (current : Current limits world payee time) (reservation : ℕ) (held : Reservation)
    (young : Young limits (world.reserved limits payee ops time) reservation held) :
    ∃ entry ∈ entriesOf (world.reserved limits payee ops time).store held.user,
      StandsFor entry reservation held := by
  obtain ⟨stored, unreleased, made, given, young⟩ := young
  rw [entriesOf_reserved]
  rcases reservation_reserved kept.aligned stored given with ⟨found, known⟩ | ⟨rfl, rfl⟩
  · have before : Young limits world reservation held := ⟨found, unreleased, made, known, young⟩
    obtain ⟨entry, member, stands⟩ := kept.present reservation held before
    refine ⟨entry, ?_, stands⟩
    split
    · next owner => exact List.mem_append_left _ (current.windowed before stands owner member)
    · exact member
  · rw [if_pos rfl]
    exact ⟨_, List.mem_append_right _ (List.mem_singleton_self _), rfl, rfl⟩

/-- The window checked has all the payee's reservations of a span that covers now. -/
theorem BurstKept.spanOps_le (kept : BurstKept limits world)
    (current : Current limits world payee time) {start : ℕ}
    (within : world.time ≤ start + limits.window) :
    spanOps world payee start limits.window ≤
      QuotaStore.totalOps (world.store.burstWindow limits payee time) := by
  refine spanOps_le_window ((kept.distinct payee).sublist ((burstWindow_sublist payee time).map _))
    (fun entry member => kept.entries payee entry ((burstWindow_sublist payee time).subset member))
    fun reservation counts => ?_
  obtain ⟨held, made, found, given, owner, unreleased, later, _⟩ := found_of_spanShare counts
  have young : Young limits world reservation held :=
    ⟨found, unreleased, made, given, within.trans_lt (Nat.add_lt_add_right later _)⟩
  obtain ⟨entry, member, stands⟩ := kept.present reservation held young
  exact ⟨entry, current.windowed young stands owner member, stands.1⟩

/-- A reservation within the allowance of the window keeps the limit. -/
theorem BurstKept.reserved (kept : BurstKept limits world)
    (current : Current limits world payee time)
    (burst : QuotaStore.totalOps (world.store.burstWindow limits payee time) + ops ≤
      limits.burstOps) : BurstKept limits (world.reserved limits payee ops time) where
  aligned := by
    show (world.made ++ [world.time]).length = (world.store.reservations ++ [_]).length
    rw [List.length_append, List.length_append, kept.aligned]
    rfl
  past := by
    intro earlier member
    rcases List.mem_append.mp member with old | new
    · exact kept.past earlier old
    · exact (List.mem_singleton.mp new).le
  entries := kept.entries_reserved
  distinct := kept.distinct_reserved
  present := kept.present_reserved current
  bounded := by
    intro user start
    rw [spanOps_reserved kept.aligned]
    split
    · next covers =>
      obtain ⟨rfl, _, within⟩ := covers
      exact (Nat.add_le_add_right (kept.spanOps_le current within) ops).trans burst
    · exact kept.bounded user start

/-- A refused call leaves the window without the entries that are too old for it. -/
theorem BurstKept.pruned (kept : BurstKept limits world)
    (current : Current limits world payee time) :
    BurstKept limits { world with
      store := world.store.setWindow payee (world.store.burstWindow limits payee time) } := by
  refine kept.reduced (extends_refl _) rfl (fun user => ?_) (fun _ _ _ found stored => ?_)
    fun reservation held entry young stands _ member => ?_
  · rw [entriesOf_setWindow]
    split
    · next same =>
      subst same
      exact burstWindow_sublist user time
    · exact List.Sublist.refl _
  · obtain rfl := Option.some.inj (found.symm.trans stored)
    exact id
  · rw [entriesOf_setWindow]
    split
    · next same => exact same ▸ current.windowed young stands same member
    · exact member

/-- The burst check of a current call keeps the limit. -/
theorem BurstKept.reserving (kept : BurstKept limits world)
    (current : Current limits world payee time) {answer : Except QuotaRefusal (ℕ × QuotaRemaining)}
    (answered : answer = (world.store.reserve limits payee ops time).1) :
    BurstKept limits
      { world with
        store := (world.store.reserve limits payee ops time).2
        made := if answer.toBool then world.made ++ [world.time] else world.made } := by
  have made := QuotaStore.reserve_cases limits world.store payee ops time
  generalize world.store.reserve limits payee ops time = result at made answered ⊢
  cases made with
  | refused refusal =>
    subst answered
    exact kept.pruned current
  | held remaining daily burst =>
    subst answered
    exact kept.reserved current burst

end Steps

/-! ### Runs -/

/-- Whoever reserves is current. -/
def ReservesCurrent (limits : QuotaLimits) (world : World) :
    (request : Request) → Answer request → Prop
  | .reserve payee _ time, _ => Current limits world payee time
  | _, _ => True

/-- A run whose reservations are all made by current calls reaches this world. -/
def ReachedCurrent (service : SponsorService) (world : World) (calls : Calls) : Prop :=
  ∃ time, ((runtime service.limits).restrict (ReservesCurrent service.limits)).Reaches
    (Started service) (World.fresh time, []) (world, calls)

theorem burstKept_fresh (limits : QuotaLimits) (time : ℕ) :
    BurstKept limits (World.fresh time) where
  aligned := rfl
  past := fun _ impossible => absurd impossible List.not_mem_nil
  entries := fun _ _ impossible => absurd impossible List.not_mem_nil
  distinct := fun _ => List.nodup_nil
  present := by
    rintro reservation held ⟨impossible, _⟩
    cases impossible
  bounded := fun _ _ => Nat.zero_le _

theorem BurstKept.serves {limits : QuotaLimits} {world after : World}
    (kept : BurstKept limits world) {request : Request} {answer : Answer request}
    (served : serves limits world request answer after)
    (current : ReservesCurrent limits world request answer) : BurstKept limits after := by
  cases request with
  | now => exact served.2 ▸ kept
  | wait => exact Eq.symm served ▸ kept
  | ownerOf account => exact Eq.symm served ▸ kept
  | send reservation transaction => exact Eq.symm served ▸ kept
  | reserve payee ops time =>
    obtain ⟨answered, rfl⟩ := served
    exact kept.reserving current answered
  | sign reservation transaction =>
    obtain rfl := served
    exact ⟨kept.aligned, kept.past, kept.entries, kept.distinct, kept.present, kept.bounded⟩
  | commit reservation reverted =>
    obtain rfl := served
    refine kept.settledOnce reservation .committed
      (fun held => QuotaStore.reservations_settle world.store held reverted) (fun held user => ?_)
      fun held user entry member _ => ?_
    · rw [entriesOf_settle]
    · rw [entriesOf_settle]
      exact member
  | release reservation =>
    obtain rfl := served
    exact kept.settledOnce reservation .released
      (fun held => QuotaStore.reservations_unhold world.store reservation held)
      (fun held user => entriesOf_unhold reservation held user)
      fun held user entry member other => mem_entriesOf_unhold member (other rfl)
  | recordRefusal category time =>
    obtain rfl := served
    exact ⟨kept.aligned, kept.past, kept.entries, kept.distinct, kept.present, kept.bounded⟩

section Sample

/-- A service with a burst allowance of one operation a minute. -/
def oneAMinute : SponsorService := { sampleService with limits := ⟨200, 1, 60⟩ }

/-- Time passes. -/
def passing (milliseconds : ℕ) : SampleTurn :=
  .drift fun world => { world with time := world.time + milliseconds }

theorem allowed_passing (service : SponsorService) (milliseconds : ℕ) :
    (passing milliseconds).Allowed (runtime service.limits) (Started service) :=
  fun world => ⟨world.time + milliseconds, Nat.le_add_right _ _, rfl⟩

/-- A call arrives and its validation takes 61 seconds; another one arrives as it reserves. -/
def agingTurns : List SampleTurn :=
  [passing 1000, .start (sponsor oneAMinute sampleTransaction), passing 61000,
    goOn oneAMinute.limits 0, goOn oneAMinute.limits 0, passing 1,
    .start (sponsor oneAMinute sampleTransaction), goOn oneAMinute.limits 1,
    goOn oneAMinute.limits 1]

/-- Reserving is permitted to current calls. -/
def currentOnly (limits : QuotaLimits) (world : World) : Request → Bool
  | .reserve payee _ time => (world.store.reservations.zip world.made).all fun entry =>
      entry.1.user != payee || decide (entry.1.settled = some .released) ||
        decide (entry.2 + limits.window ≤ world.time) ||
          decide (time < entry.1.time + limits.window)
  | _ => true

theorem reservesCurrent_currentOnly (limits : QuotaLimits) (world : World) (request : Request)
    (answer : Answer request) (permitted : currentOnly limits world request = true) :
    ReservesCurrent limits world request answer := by
  cases request with
  | reserve payee ops time =>
    rintro reservation held ⟨found, unreleased, made, given, young⟩ owner
    have listed : (held, made) ∈ world.store.reservations.zip world.made := by
      refine List.mem_of_getElem? (i := reservation) ?_
      rw [List.getElem?_zip_eq_some]
      exact ⟨found, given⟩
    have allowed := List.all_eq_true.mp permitted _ listed
    simp only [owner, bne_self_eq_false, Bool.false_or, Bool.or_eq_true, decide_eq_true_eq,
      unreleased, false_or, not_le.mpr young] at allowed
    exact allowed
  | _ => trivial

/-- A service with a burst allowance of two operations a minute. -/
def twoAMinute : SponsorService := { sampleService with limits := ⟨200, 2, 60⟩ }

/-- Three calls of one payee; the first one reserves half a minute after its arrival, when the
second one arrives, and the third one finds the allowance used. -/
def slowTurns : List SampleTurn :=
  [passing 1000, .start (sponsor twoAMinute sampleTransaction), passing 30000,
    .start (sponsor twoAMinute sampleTransaction), goOn twoAMinute.limits 0,
    goOn twoAMinute.limits 0, goOn twoAMinute.limits 1, goOn twoAMinute.limits 1, passing 1000,
    .start (sponsor twoAMinute sampleTransaction), goOn twoAMinute.limits 2,
    goOn twoAMinute.limits 2]

end Sample

end OpenSocial.Sponsor

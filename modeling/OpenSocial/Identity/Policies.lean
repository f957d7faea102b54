/-
This file proves that a recovery policy in force is replaced only by one that the
account's owner queued long enough before.

A queued policy is explained by the call that queued it: the owner of that time
authorized it, the policy then in force set its delay, and no call has queued,
applied, cancelled or voided anything since. Executing a recovery voids the
queue, so whoever queued a policy that is applied is still the owner.
-/

import OpenSocial.Identity.Recovery
import OpenSocial.Library.Lasting

namespace OpenSocial.Identity

open Library Library.Word

/-! ### The queue of one account -/

/-- Whether an accepted call writes the queued policy of an account. -/
def writesQueue (account : Address) (entry : machine.Accepted) : Bool :=
  match entry.call.operation with
  | .setRecoveryPolicy args => args.account == account.val
  | .applyRecoveryPolicy args => args.account == account.val
  | .cancelRecoveryPolicy args => args.account == account.val
  | .executeRecovery args => args.account == account.val
  | _ => false

/-- The owner of an account queued a policy, to be due no sooner than the delay of the policy then
in force. -/
structure Queues (account owner : Address) (current policy : RecoveryPolicy) (due : ℕ)
    (entry : machine.Accepted) : Prop where
  queued : entry.call.operation = .setRecoveryPolicy ⟨account.val, some policy⟩
  owned : ownerOf entry.before account.val = some owner
  authorized : entry.call.env.authority owner.val = true
  inForce : (loadRecovery entry.before account.val).policy = some current
  delayed : entry.call.env.now + current.delayMs ≤ due

/-- A call leaves the queue alone while a policy is in force. -/
structure LeavesQueue (account : Address) (current : RecoveryPolicy) (entry : machine.Accepted) :
    Prop where
  silent : writesQueue account entry = false
  inForce : (loadRecovery entry.before account.val).policy = some current

/-- Every queued policy was queued by the present owner, and the queue and the policy in force
have stayed as they are since. -/
def QueueInvariant (account : Address) (history : List machine.Accepted) (state : State) : Prop :=
  ∀ pending, (loadRecovery state account.val).pendingPolicy = some pending →
    ∃ owner current, ownerOf state account.val = some owner ∧
      (loadRecovery state account.val).policy = some current ∧
      LastsSince (fun _ => Queues account owner current pending.policy pending.effectiveAt)
        (LeavesQueue account current) history

theorem writesQueue_of_other {account : Address} {entry : machine.Accepted}
    (other : entry.call.operation.account ≠ account.val) : writesQueue account entry = false := by
  unfold writesQueue
  cases operation : entry.call.operation with
  | setRecoveryPolicy args => simpa [operation, Operation.account] using other
  | applyRecoveryPolicy args => simpa [operation, Operation.account] using other
  | cancelRecoveryPolicy args => simpa [operation, Operation.account] using other
  | executeRecovery args => simpa [operation, Operation.account] using other
  | _ => rfl

/-! ### Who owns an account -/

/-- A record written over one with the same owner leaves every owner. -/
theorem ownerOf_putIdentity_same {state : State} {other : Address} {record updated : IdentityRecord}
    (known : state.identities.get other.val = some record) (same : updated.owner = record.owner)
    (account : Bytes) : ownerOf (state.putIdentity other updated) account = ownerOf state account := by
  unfold ownerOf
  rw [putIdentity_identities, Store.get_put]
  split
  · next at_account => rw [at_account, known, Option.map_some, Option.map_some, same]
  · rfl

/-- A record written for another account leaves the owner. -/
theorem ownerOf_putIdentity_other {state : State} {other : Address} {updated : IdentityRecord}
    {account : Bytes} (different : account ≠ other.val) :
    ownerOf (state.putIdentity other updated) account = ownerOf state account := by
  unfold ownerOf
  rw [putIdentity_identities, Store.get_put, if_neg different]

/-- A known owner stays, but for an executed recovery of the account. -/
theorem ownerOf_kept {env : Env} {operation : Operation} {state after : State}
    {events : List Event} (effect : Effect env state operation after events) {account owner : Address}
    (owned : ownerOf state account.val = some owner)
    (quiet : operation ≠ .executeRecovery ⟨account.val⟩) :
    ownerOf after account.val = some owner := by
  cases effect with
  | registered other key keyVersion profileHash profileUri authorized fresh =>
    by_cases same : account.val = other.val
    · rw [ownerOf, same, fresh] at owned
      cases owned
    · rw [ownerOf_putIdentity_other same, owned]
  | profileUpdated other profileHash profileUri device record resolved authorized known =>
    refine (ownerOf_putIdentity_same known ?_ account.val).trans owned
    rfl
  | keyRotated other key keyVersion record known =>
    refine (ownerOf_putIdentity_same known ?_ account.val).trans owned
    rfl
  | recovered other record pending known =>
    by_cases same : account.val = other.val
    · rw [same] at quiet
      exact absurd rfl quiet
    · show ownerOf (state.putIdentity other _) account.val = some owner
      rw [ownerOf_putIdentity_other same, owned]
  | _ => exact owned

/-! ### Every call keeps the queue invariant -/

/-- A call that leaves the queue, the policy in force and the owner alone keeps the invariant. -/
theorem queueInvariant_of_quiet {account : Address} {history : List machine.Accepted}
    {entry : machine.Accepted} (invariant : QueueInvariant account history entry.before)
    (silent : writesQueue account entry = false)
    (samePending : (loadRecovery entry.after account.val).pendingPolicy =
      (loadRecovery entry.before account.val).pendingPolicy)
    (samePolicy : (loadRecovery entry.after account.val).policy =
      (loadRecovery entry.before account.val).policy)
    (notExecuted : entry.call.operation ≠ .executeRecovery ⟨account.val⟩) :
    QueueInvariant account (history ++ [entry]) entry.after := by
  intro pending stored
  rw [samePending] at stored
  obtain ⟨owner, current, owned, inForce, lasting⟩ := invariant pending stored
  refine ⟨owner, current, ownerOf_kept (effect_of_entry entry) owned notExecuted, ?_, ?_⟩
  · rw [samePolicy, inForce]
  · exact lasting.continues ⟨silent, inForce⟩

/-- A call after which nothing is queued keeps the invariant. -/
theorem queueInvariant_of_empty {account : Address} {history : List machine.Accepted}
    {state : State} (empty : (loadRecovery state account.val).pendingPolicy = none) :
    QueueInvariant account history state := by
  intro pending stored
  rw [empty] at stored
  cases stored

/-- Every accepted call keeps the queue invariant of every account. -/
theorem queueInvariant_step {history : List machine.Accepted} (entry : machine.Accepted)
    (account : Address) (early : entry.call.env.now < 2 ^ 63)
    (recovery : RecoveryInvariant account history (loadRecovery entry.before account.val))
    (invariant : QueueInvariant account history entry.before) :
    QueueInvariant account (history ++ [entry]) entry.after := by
  by_cases about : entry.call.operation.account = account.val
  · have quiet := queueInvariant_of_quiet invariant
    have effect := effect_of_entry entry
    generalize operation_eq : entry.call.operation = operation at effect about quiet
    generalize after_eq : entry.after = after at effect quiet ⊢
    generalize output_eq : entry.output = output at effect
    cases effect with
    | registered other => exact quiet (by rw [writesQueue, operation_eq]) rfl rfl (by simp)
    | profileUpdated other => exact quiet (by rw [writesQueue, operation_eq]) rfl rfl (by simp)
    | keyRotated other => exact quiet (by rw [writesQueue, operation_eq]) rfl rfl (by simp)
    | deviceAuthorized other => exact quiet (by rw [writesQueue, operation_eq]) rfl rfl (by simp)
    | deviceRevoked other => exact quiet (by rw [writesQueue, operation_eq]) rfl rfl (by simp)
    | firstPolicySet other policy record known authorized valid unset =>
      obtain rfl : other = account := Subtype.ext about
      refine queueInvariant_of_empty ?_
      rw [loadRecovery_putRecovery, if_pos rfl]
    | policyQueued other policy current record known authorized valid inForce =>
      obtain rfl : other = account := Subtype.ext about
      intro pending stored
      rw [loadRecovery_putRecovery, if_pos rfl] at stored
      cases stored
      have owned : ownerOf entry.before other.val = some record.owner := by
        rw [ownerOf, known, Option.map_some]
      refine ⟨record.owner, current, owned, ?_, LastsSince.begins ?_⟩
      · rw [loadRecovery_putRecovery, if_pos rfl, inForce]
      · have bounded := (recovery.validActive current inForce).timely
        simp only [MAX_RECOVERY_DELAY_MS, DAY_MS] at bounded
        refine ⟨operation_eq, owned, authorized, inForce, ?_⟩
        rw [wrapAdd_of_lt (by omega)]
    | policyApplied other record pending known queued elapsed =>
      obtain rfl : other = account := Subtype.ext about
      refine queueInvariant_of_empty ?_
      rw [loadRecovery_putRecovery, if_pos rfl]
    | policyCancelled other record pending known authorized queued =>
      obtain rfl : other = account := Subtype.ext about
      refine queueInvariant_of_empty ?_
      rw [loadRecovery_putRecovery, if_pos rfl]
    | recoveryProposed other guardian newOwner record policy approved =>
      obtain rfl : other = account := Subtype.ext about
      refine quiet (by rw [writesQueue, operation_eq]) ?_ ?_ (by simp)
      · rw [loadRecovery_putRecovery, if_pos rfl]
      · rw [loadRecovery_putRecovery, if_pos rfl]
    | recoveryCancelled other record pending =>
      obtain rfl : other = account := Subtype.ext about
      refine quiet (by rw [writesQueue, operation_eq]) ?_ ?_ (by simp)
      · rw [loadRecovery_putRecovery, if_pos rfl]
      · rw [loadRecovery_putRecovery, if_pos rfl]
    | recovered other record pending =>
      obtain rfl : other = account := Subtype.ext about
      refine queueInvariant_of_empty ?_
      rw [loadRecovery_putRecovery, if_pos rfl]
  · have same := loadRecovery_of_other (effect_of_entry entry) about
    refine queueInvariant_of_quiet invariant (writesQueue_of_other about) (by rw [same])
      (by rw [same]) fun executed => about ?_
    rw [executed]
    rfl

/-! ### Along every run -/

/-- What a chronological run keeps: its past is past, and both invariants hold of every account. -/
structure PolicyTracked (clock : ℕ) (history : List machine.Accepted) (state : State) : Prop where
  past : ∀ earlier ∈ history, earlier.call.env.now ≤ clock
  recovery : ∀ account : Address, RecoveryInvariant account history (loadRecovery state account.val)
  queue : ∀ account : Address, QueueInvariant account history state

theorem policyTracked_empty : PolicyTracked 0 [] machine.initial where
  past _ member := absurd member List.not_mem_nil
  recovery := recoveryInvariant_empty
  queue _ := queueInvariant_of_empty rfl

theorem policyTracked_wait (earlier later : ℕ) (history : List machine.Accepted) (state : State)
    (passed : earlier ≤ later) (tracked : PolicyTracked earlier history state) :
    PolicyTracked later history state where
  past entry member := (tracked.past entry member).trans passed
  recovery := tracked.recovery
  queue := tracked.queue

theorem policyTracked_step {calls : List Call} (early : ∀ call ∈ calls, call.env.now < 2 ^ 63)
    (history : List machine.Accepted) (entry : machine.Accepted) (member : entry.call ∈ calls)
    (tracked : PolicyTracked entry.call.time history entry.before) :
    PolicyTracked entry.call.time (history ++ [entry]) entry.after := by
  obtain ⟨past, recovery⟩ := recoveryInvariant_timed calls early history entry member
    ⟨tracked.past, tracked.recovery⟩
  exact ⟨past, recovery, fun account => queueInvariant_step entry account (early entry.call member)
    (tracked.recovery account) (tracked.queue account)⟩

/-- A policy in force changes only when a queued one is applied. -/
theorem applied_of_policy_changed (entry : machine.Accepted) {account : Address}
    {current : RecoveryPolicy}
    (inForce : (loadRecovery entry.before account.val).policy = some current)
    (changed : (loadRecovery entry.after account.val).policy ≠ some current) :
    entry.call.operation = .applyRecoveryPolicy ⟨account.val⟩ ∧
      ∃ pending, (loadRecovery entry.before account.val).pendingPolicy = some pending ∧
        pending.effectiveAt ≤ entry.call.env.now ∧
        (loadRecovery entry.after account.val).policy = some pending.policy := by
  have effect := effect_of_entry entry
  by_cases about : entry.call.operation.account = account.val
  · generalize entry.call.operation = operation at effect about ⊢
    generalize entry.after = after at effect changed ⊢
    generalize entry.output = output at effect
    cases effect with
    | firstPolicySet other policy record known authorized valid unset =>
      obtain rfl : other = account := Subtype.ext about
      rw [unset] at inForce
      cases inForce
    | policyApplied other record pending known queued elapsed =>
      obtain rfl : other = account := Subtype.ext about
      refine ⟨rfl, pending, queued, elapsed, ?_⟩
      rw [loadRecovery_putRecovery, if_pos rfl]
    | policyQueued other =>
      obtain rfl : other = account := Subtype.ext about
      rw [loadRecovery_putRecovery, if_pos rfl] at changed
      exact absurd inForce changed
    | policyCancelled other =>
      obtain rfl : other = account := Subtype.ext about
      rw [loadRecovery_putRecovery, if_pos rfl] at changed
      exact absurd inForce changed
    | recoveryProposed other =>
      obtain rfl : other = account := Subtype.ext about
      rw [loadRecovery_putRecovery, if_pos rfl] at changed
      exact absurd inForce changed
    | recoveryCancelled other =>
      obtain rfl : other = account := Subtype.ext about
      rw [loadRecovery_putRecovery, if_pos rfl] at changed
      exact absurd inForce changed
    | recovered other =>
      obtain rfl : other = account := Subtype.ext about
      rw [loadRecovery_putRecovery, if_pos rfl] at changed
      exact absurd inForce changed
    | _ => exact absurd inForce changed
  · rw [loadRecovery_of_other effect about] at changed
    exact absurd inForce changed

/-- Once an account has a policy, its policy changes only by applying one that its present owner
queued at least the delay of the policy in force before, with the queue and the policy in force
untouched since; and every policy in force is valid. -/
theorem policy_time_lock (calls : List Call)
    (chronological : Machine.Chronological Call.time 0 calls)
    (early : ∀ call ∈ calls, call.env.now < 2 ^ 63) (account : Address) :
    (∀ earlier entry later, machine.history machine.initial calls = earlier ++ entry :: later →
      ∀ current, (loadRecovery entry.before account.val).policy = some current →
        (loadRecovery entry.after account.val).policy ≠ some current →
        entry.call.operation = .applyRecoveryPolicy ⟨account.val⟩ ∧
          ∃ owner policy, ownerOf entry.before account.val = some owner ∧
            (loadRecovery entry.after account.val).policy = some policy ∧
            LastsSince (fun _ => Queues account owner current policy entry.call.env.now)
              (LeavesQueue account current) earlier) ∧
      ∀ policy, (loadRecovery (machine.final machine.initial calls) account.val).policy =
        some policy → ValidPolicy account.val policy := by
  refine ⟨fun earlier entry later split current inForce changed => ?_, fun policy stored => ?_⟩
  · obtain ⟨applied, pending, queued, elapsed, replaced⟩ :=
      applied_of_policy_changed entry inForce changed
    have tracked := machine.timed_before Call.time machine.initial 0 PolicyTracked
      policyTracked_empty policyTracked_wait calls (policyTracked_step early) chronological split
    obtain ⟨owner, other, owned, stillInForce, lasting⟩ := tracked.queue account pending queued
    have same : other = current := Option.some.inj (stillInForce.symm.trans inForce)
    subst same
    refine ⟨applied, owner, pending.policy, owned, replaced, lasting.weaken ?_ fun _ kept => kept⟩
    exact fun _ first queues =>
      ⟨queues.queued, queues.owned, queues.authorized, queues.inForce, queues.delayed.trans elapsed⟩
  · have passed : ∀ call ∈ calls, call.time ≤ 2 ^ 63 := fun call member => (early call member).le
    have tracked := machine.timed_induction Call.time machine.initial 0 PolicyTracked
      policyTracked_empty policyTracked_wait calls (policyTracked_step early) chronological (2 ^ 63)
      (Nat.zero_le _) passed
    exact (tracked.recovery account).validActive policy stored

/-- A run in which an owner replaces a policy with a delay of ten. -/
def replacedPolicyRun : List Call :=
  let account := Address.repeated 1
  let env := Env.signedBy []
  [⟨env 0, .register ⟨account.val, List.replicate 32 7, 1, [], ""⟩⟩,
    ⟨env 1, .setRecoveryPolicy ⟨account.val, some ⟨[(Address.repeated 2).val], 1, 10⟩⟩⟩,
    ⟨env 2, .setRecoveryPolicy ⟨account.val, some ⟨[(Address.repeated 3).val], 1, 0⟩⟩⟩,
    ⟨env 12, .applyRecoveryPolicy ⟨account.val⟩⟩]

theorem policy_time_lock_replaced :
    ∃ earlier entry owner,
      machine.history machine.initial replacedPolicyRun = earlier ++ [entry] ∧
      LastsSince (fun _ => Queues (Address.repeated 1) owner ⟨[(Address.repeated 2).val], 1, 10⟩
          ⟨[(Address.repeated 3).val], 1, 0⟩ 12)
        (LeavesQueue (Address.repeated 1) ⟨[(Address.repeated 2).val], 1, 10⟩) earlier := by
  have executes : (machine.step (machine.final machine.initial (replacedPolicyRun.take 3))
      ⟨Env.signedBy [] 12, .applyRecoveryPolicy ⟨(Address.repeated 1).val⟩⟩).isOk = true := by
    decide +kernel
  obtain ⟨⟨after, output⟩, answer⟩ := exists_ok_of_toBool executes
  have history_eq := machine.history_concat_of_ok answer
  have final_eq := machine.final_concat_of_ok answer
  have inForce : (loadRecovery (machine.final machine.initial (replacedPolicyRun.take 3))
      (Address.repeated 1).val).policy = some ⟨[(Address.repeated 2).val], 1, 10⟩ := by
    decide +kernel
  have replaced : (loadRecovery after (Address.repeated 1).val).policy =
      some ⟨[(Address.repeated 3).val], 1, 0⟩ := by
    rw [← final_eq]
    decide +kernel
  obtain ⟨locked, _⟩ := policy_time_lock replacedPolicyRun ⟨by decide, by decide⟩ (by decide)
    (Address.repeated 1)
  obtain ⟨_, owner, policy, _, stored, lasting⟩ := locked _ _ [] history_eq _ inForce
    (by rw [replaced]; decide)
  have same := Option.some.inj (stored.symm.trans replaced)
  subst same
  exact ⟨_, _, owner, history_eq, lasting⟩

end OpenSocial.Identity

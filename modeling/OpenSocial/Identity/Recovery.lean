/-
This file proves that guardian recovery is safe along every run.

The ghost of the argument is the list of approvals a history holds for one
account and one proposed owner: the accepted `propose_recovery` calls for them
since the last call that voided or restarted the recovery. The invariant says
that the contract's pending record lists exactly the guardians of those
approvals, that the policy in force is the one they were given under, and that a
nonzero `effective_at` is at least the policy's delay after the approval that
first reached the threshold. An owner changes only in `execute_recovery`, which
reads that record.
-/

import OpenSocial.Identity.Effects

namespace OpenSocial.Identity

open Library Library.Word

/-! ### Valid policies -/

/-- What `validatePolicy` guarantees of a policy of an account. -/
structure ValidPolicy (account : Bytes) (policy : RecoveryPolicy) : Prop where
  bounded : policy.guardians.length ≤ MAX_GUARDIANS
  distinct : policy.guardians.Nodup
  others : ∀ guardian ∈ policy.guardians, guardian.length = 25 ∧ guardian ≠ account
  positive : 1 ≤ policy.threshold
  reachable : policy.threshold ≤ policy.guardians.length
  timely : policy.delayMs ≤ MAX_RECOVERY_DELAY_MS

theorem validateGuardians_ok {account : Bytes} {earlier guardians : List Bytes}
    (valid : validateGuardians account earlier guardians = .ok ()) (distinct : earlier.Nodup) :
    (earlier ++ guardians).Nodup ∧
      ∀ guardian ∈ guardians, guardian.length = 25 ∧ guardian ≠ account := by
  induction guardians generalizing earlier with
  | nil => exact ⟨by rwa [List.append_nil], fun guardian member => absurd member (by simp)⟩
  | cons guardian rest inductionHypothesis =>
    simp only [validateGuardians, bind_eq_ok, require_eq_ok, Util.requireAddress_eq_ok,
      exists_const, bne_iff_ne, Bool.not_eq_eq_eq_not, Bool.not_true] at valid
    obtain ⟨address, rfl, other, fresh, valid⟩ := valid
    have absent : address.val ∉ earlier := by
      rw [← contains_eq_true, fresh]
      exact Bool.false_ne_true
    have extended : (earlier ++ [address.val]).Nodup :=
      List.nodup_append.mpr ⟨distinct, List.nodup_singleton _, fun left leftMember right member => by
        rw [List.mem_singleton.mp member]
        exact fun same => absent (same ▸ leftMember)⟩
    obtain ⟨whole, rest⟩ := inductionHypothesis valid extended
    rw [List.append_assoc, List.singleton_append] at whole
    refine ⟨whole, fun member inList => ?_⟩
    rcases List.mem_cons.mp inList with rfl | inRest
    · exact ⟨address.property, other⟩
    · exact rest member inRest

theorem validPolicy_of_validatePolicy {account : Bytes} {policy : RecoveryPolicy}
    (valid : validatePolicy policy account = .ok ()) : ValidPolicy account policy := by
  simp only [validatePolicy, bind_eq_ok, require_eq_ok, exists_const, decide_eq_true_eq] at valid
  obtain ⟨_, bounded, _, guardians, positive, reachable, timely⟩ := valid
  obtain ⟨distinct, others⟩ := validateGuardians_ok guardians List.nodup_nil
  exact ⟨bounded, distinct, others, positive, reachable, timely⟩

/-! ### Approvals in a history -/

/-- The account a call is about. -/
def Operation.account : Operation → Bytes
  | .register args => args.account
  | .updateProfile args => args.account
  | .rotateEncryptionKey args => args.account
  | .authorizeDevice args => args.account
  | .revokeDevice args => args.account
  | .setRecoveryPolicy args => args.account
  | .applyRecoveryPolicy args => args.account
  | .cancelRecoveryPolicy args => args.account
  | .proposeRecovery args => args.account
  | .cancelRecovery args => args.account
  | .executeRecovery args => args.account

/-- Whether an accepted call voids or restarts the recovery of `account` towards `newOwner`:
a cancellation, an applied policy change, an executed recovery, or a proposal for another
new owner. -/
def restarts (account newOwner : Address) (entry : machine.Accepted) : Bool :=
  match entry.call.operation with
  | .applyRecoveryPolicy args => args.account == account.val
  | .cancelRecovery args => args.account == account.val
  | .executeRecovery args => args.account == account.val
  | .proposeRecovery args => args.account == account.val && args.newOwner != newOwner.val
  | _ => false

/-- Whether an accepted call proposes to recover `account` to `newOwner`. -/
def approves (account newOwner : Address) (entry : machine.Accepted) : Bool :=
  match entry.call.operation with
  | .proposeRecovery args => args.account == account.val && args.newOwner == newOwner.val
  | _ => false

/-- The guardian a proposal names. -/
def guardianOf (entry : machine.Accepted) : Bytes :=
  match entry.call.operation with
  | .proposeRecovery args => args.guardian
  | _ => []

/-- The proposals to recover `account` to `newOwner` since the last voiding or restarting call. -/
def approvalsSince (account newOwner : Address) (history : List machine.Accepted) :
    List machine.Accepted :=
  (history.rtakeWhile fun entry => !restarts account newOwner entry).filter
    (approves account newOwner)

section Approvals

variable {account newOwner : Address} {history : List machine.Accepted}
  {entry : machine.Accepted}

theorem approvalsSince_of_restarts (restarted : restarts account newOwner entry = true) :
    approvalsSince account newOwner (history ++ [entry]) = [] := by
  rw [approvalsSince, List.rtakeWhile_concat, restarted]
  rfl

theorem approvalsSince_of_approves (running : restarts account newOwner entry = false)
    (approved : approves account newOwner entry = true) :
    approvalsSince account newOwner (history ++ [entry]) =
      approvalsSince account newOwner history ++ [entry] := by
  rw [approvalsSince, List.rtakeWhile_concat, running]
  simp only [Bool.not_false, if_true, List.filter_append, List.filter_singleton, approved]
  rfl

theorem approvalsSince_of_quiet (running : restarts account newOwner entry = false)
    (silent : approves account newOwner entry = false) :
    approvalsSince account newOwner (history ++ [entry]) =
      approvalsSince account newOwner history := by
  rw [approvalsSince, List.rtakeWhile_concat, running]
  simp only [Bool.not_false, if_true, List.filter_append, List.filter_singleton, silent,
    cond_false, List.append_nil]
  rfl

theorem mem_history_of_mem_approvalsSince (member : entry ∈ approvalsSince account newOwner history) :
    entry ∈ history :=
  (List.rtakeWhile_suffix _ history).subset (List.mem_of_mem_filter member)

theorem approves_of_mem_approvalsSince (member : entry ∈ approvalsSince account newOwner history) :
    approves account newOwner entry = true :=
  (List.mem_filter.mp member).2

theorem restarts_of_other (other : entry.call.operation.account ≠ account.val) :
    restarts account newOwner entry = false := by
  unfold restarts
  cases operation : entry.call.operation with
  | applyRecoveryPolicy args => simpa [operation, Operation.account] using other
  | cancelRecovery args => simpa [operation, Operation.account] using other
  | executeRecovery args => simpa [operation, Operation.account] using other
  | proposeRecovery args =>
    rw [operation] at other
    simp only [Operation.account] at other
    simp [other]
  | _ => rfl

theorem approves_of_other (other : entry.call.operation.account ≠ account.val) :
    approves account newOwner entry = false := by
  unfold approves
  cases operation : entry.call.operation with
  | proposeRecovery args =>
    rw [operation] at other
    simp only [Operation.account] at other
    simp [other]
  | _ => rfl

end Approvals

/-- An accepted proposal was authorized by the guardian it names. -/
theorem authority_of_approves {account newOwner : Address} {entry : machine.Accepted}
    (approved : approves account newOwner entry = true) :
    entry.call.env.authority (guardianOf entry) = true := by
  obtain ⟨before, ⟨env, operation⟩, after, output, accepted⟩ := entry
  have effect := effect_of_accepted accepted
  cases effect with
  | recoveryProposed account guardian newOwner record policy approved known authorized => exact authorized
  | _ => exact absurd approved Bool.false_ne_true

/-- A call leaves the recovery state of every other account as it was. -/
theorem loadRecovery_of_other {env : Env} {operation : Operation} {state after : State}
    {events : List Event} (effect : Effect env state operation after events) {account : Bytes}
    (other : operation.account ≠ account) :
    loadRecovery after account = loadRecovery state account := by
  cases effect with
  | registered => rfl
  | profileUpdated => rfl
  | keyRotated => rfl
  | deviceAuthorized => rfl
  | deviceRevoked => rfl
  | _ =>
    rw [loadRecovery_putRecovery]
    exact if_neg (Ne.symm other)

/-! ### The invariant -/

/-- The approvals stored for one proposed owner. -/
def pendingApprovals (recovery : RecoveryState) (newOwner : Address) : List Bytes :=
  match recovery.pendingRecovery with
  | none => []
  | some pending => if pending.newOwner = newOwner then pending.approvals else []

/-- What a stored pending recovery stands for: distinct guardians of the policy in force and,
once `effectiveAt` is set, an approval that reached the threshold at least the delay before. -/
structure Supported (account : Address) (history : List machine.Accepted)
    (policy : RecoveryPolicy) (pending : PendingRecovery) : Prop where
  distinct : pending.approvals.Nodup
  listed : ∀ guardian ∈ pending.approvals, guardian ∈ policy.guardians
  reached : pending.effectiveAt ≠ 0 → policy.threshold ≤ pending.approvals.length ∧
    ∃ decisive, (approvalsSince account pending.newOwner history)[policy.threshold - 1]? =
        some decisive ∧
      decisive.call.env.now + policy.delayMs ≤ pending.effectiveAt

/-- The invariant of one account's recovery state. -/
structure RecoveryInvariant (account : Address) (history : List machine.Accepted)
    (recovery : RecoveryState) : Prop where
  validActive : ∀ policy, recovery.policy = some policy → ValidPolicy account.val policy
  validQueued : ∀ pending, recovery.pendingPolicy = some pending →
    ValidPolicy account.val pending.policy
  recorded : ∀ newOwner, (approvalsSince account newOwner history).map guardianOf =
    pendingApprovals recovery newOwner
  stable : ∀ newOwner, ∀ approval ∈ approvalsSince account newOwner history,
    (loadRecovery approval.before account.val).policy = recovery.policy
  supported : ∀ pending, recovery.pendingRecovery = some pending →
    ∃ policy, recovery.policy = some policy ∧ Supported account history policy pending

theorem approvalsSince_eq_nil {account : Address} {history : List machine.Accepted}
    {recovery : RecoveryState} (invariant : RecoveryInvariant account history recovery)
    (newOwner : Address) (none : pendingApprovals recovery newOwner = []) :
    approvalsSince account newOwner history = [] := by
  have recorded := invariant.recorded newOwner
  rw [none, List.map_eq_nil_iff] at recorded
  exact recorded

/-- A quiet call keeps every fact about an unchanged recovery state. -/
theorem supported_of_quiet {account : Address} {history : List machine.Accepted}
    {entry : machine.Accepted} {policy : RecoveryPolicy} {pending : PendingRecovery}
    (running : restarts account pending.newOwner entry = false)
    (silent : approves account pending.newOwner entry = false)
    (supported : Supported account history policy pending) :
    Supported account (history ++ [entry]) policy pending := by
  refine ⟨supported.distinct, supported.listed, fun set => ?_⟩
  rw [approvalsSince_of_quiet running silent]
  exact supported.reached set

/-- A call that neither restarts nor approves, and changes at most the policies, keeps the
invariant when the policies stay valid and the active one moves only while nothing is pending. -/
theorem recoveryInvariant_of_quiet {account : Address} {history : List machine.Accepted}
    {entry : machine.Accepted} {before after : RecoveryState}
    (running : ∀ newOwner, restarts account newOwner entry = false)
    (silent : ∀ newOwner, approves account newOwner entry = false)
    (invariant : RecoveryInvariant account history before)
    (validActive : ∀ policy, after.policy = some policy → ValidPolicy account.val policy)
    (validQueued : ∀ pending, after.pendingPolicy = some pending →
      ValidPolicy account.val pending.policy)
    (samePending : after.pendingRecovery = before.pendingRecovery)
    (samePolicy : after.policy = before.policy ∨ before.policy = none) :
    RecoveryInvariant account (history ++ [entry]) after := by
  have idle : before.policy = none → before.pendingRecovery = none := by
    intro unset
    cases pending : before.pendingRecovery with
    | none => rfl
    | some record =>
      obtain ⟨policy, inForce, _⟩ := invariant.supported record pending
      exact absurd (unset.symm.trans inForce) (by simp)
  refine ⟨validActive, validQueued, fun newOwner => ?_, fun newOwner approval member => ?_,
    fun pending stored => ?_⟩
  · rw [approvalsSince_of_quiet (running newOwner) (silent newOwner), invariant.recorded newOwner,
      pendingApprovals, pendingApprovals, samePending]
  · rw [approvalsSince_of_quiet (running newOwner) (silent newOwner)] at member
    rcases samePolicy with same | unset
    · rw [same]
      exact invariant.stable newOwner approval member
    · have none : pendingApprovals before newOwner = [] := by
        rw [pendingApprovals, idle unset]
      rw [approvalsSince_eq_nil invariant newOwner none] at member
      exact absurd member (by simp)
  · rw [samePending] at stored
    obtain ⟨policy, inForce, supported⟩ := invariant.supported pending stored
    rcases samePolicy with same | unset
    · exact ⟨policy, same.trans inForce,
        supported_of_quiet (running _) (silent _) supported⟩
    · exact absurd (stored.symm.trans (idle unset)) (by simp)

/-- A call that restarts every recovery of the account and leaves none pending keeps the
invariant when the policies stay valid. -/
theorem recoveryInvariant_of_restarts {account : Address} {history : List machine.Accepted}
    {entry : machine.Accepted} {after : RecoveryState}
    (restarted : ∀ newOwner, restarts account newOwner entry = true)
    (validActive : ∀ policy, after.policy = some policy → ValidPolicy account.val policy)
    (validQueued : ∀ pending, after.pendingPolicy = some pending →
      ValidPolicy account.val pending.policy)
    (voided : after.pendingRecovery = none) :
    RecoveryInvariant account (history ++ [entry]) after := by
  refine ⟨validActive, validQueued, fun newOwner => ?_, fun newOwner approval member => ?_,
    fun pending stored => ?_⟩
  · rw [approvalsSince_of_restarts (restarted newOwner), pendingApprovals, voided]
    rfl
  · rw [approvalsSince_of_restarts (restarted newOwner)] at member
    exact absurd member (by simp)
  · exact absurd (stored.symm.trans voided) (by simp)

/-- What one more approval makes of the pending recovery. -/
theorem approve_eq_ok {env : Env} {recovery : RecoveryState} {guardian newOwner : Address}
    {approved : PendingRecovery}
    (approval : approve env recovery.pendingRecovery guardian newOwner = .ok approved) :
    approved.newOwner = newOwner ∧
      approved.approvals = pendingApprovals recovery newOwner ++ [guardian.val] ∧
      guardian.val ∉ pendingApprovals recovery newOwner ∧
      (approved.effectiveAt ≠ 0 → ∃ pending, recovery.pendingRecovery = some pending ∧
        pending.newOwner = newOwner ∧ pending.effectiveAt = approved.effectiveAt) := by
  unfold approve at approval
  unfold pendingApprovals
  split at approval
  · next unset =>
    rw [pure_eq_ok] at approval
    subst approval
    rw [unset]
    exact ⟨rfl, rfl, List.not_mem_nil, fun set => absurd rfl set⟩
  · next pending stored =>
    rw [stored]
    split at approval
    · next other =>
      rw [pure_eq_ok] at approval
      subst approval
      simp only [if_neg other]
      exact ⟨trivial, rfl, List.not_mem_nil, fun set => absurd rfl set⟩
    · next same =>
      rw [ne_eq, not_not] at same
      simp only [bind_eq_ok, require_eq_ok, pure_eq_ok, exists_const, Bool.not_eq_eq_eq_not,
        Bool.not_true] at approval
      obtain ⟨fresh, rfl⟩ := approval
      simp only [if_pos same]
      refine ⟨same, trivial, ?_, fun _ => ⟨pending, rfl, same, rfl⟩⟩
      rw [← contains_eq_true, fresh]
      exact Bool.false_ne_true

/-- A proposal extends the approvals for its new owner and restarts every other owner's. -/
theorem recoveryInvariant_of_proposal {account guardian newOwner : Address}
    {history : List machine.Accepted} {entry : machine.Accepted} {policy : RecoveryPolicy}
    {approved : PendingRecovery} {recovery : RecoveryState}
    (proposal : entry.call.operation =
      .proposeRecovery ⟨account.val, guardian.val, newOwner.val⟩)
    (current : loadRecovery entry.before account.val = recovery)
    (inForce : recovery.policy = some policy) (listed : guardian.val ∈ policy.guardians)
    (approval : approve entry.call.env recovery.pendingRecovery guardian newOwner = .ok approved)
    (early : entry.call.env.now < 2 ^ 63)
    (past : ∀ earlier ∈ history, earlier.call.env.now ≤ entry.call.env.now)
    (invariant : RecoveryInvariant account history recovery) :
    RecoveryInvariant account (history ++ [entry]) { recovery with
      pendingRecovery := some (reachThreshold entry.call.env policy approved) } := by
  obtain ⟨towards, approvals_eq, fresh, kept⟩ := approve_eq_ok approval
  have valid := invariant.validActive policy inForce
  have named : guardianOf entry = guardian.val := by rw [guardianOf, proposal]
  have approving : approves account newOwner entry = true := by
    simp [approves, proposal]
  have running : restarts account newOwner entry = false := by
    simp [restarts, proposal]
  have restarted : ∀ other, other ≠ newOwner → restarts account other entry = true := by
    intro other different
    have distinct : newOwner.val ≠ other.val := fun same => different (Subtype.ext same.symm)
    simp [restarts, proposal, distinct]
  have extended : approvalsSince account newOwner (history ++ [entry]) =
      approvalsSince account newOwner history ++ [entry] :=
    approvalsSince_of_approves running approving
  have shape : (reachThreshold entry.call.env policy approved).newOwner = newOwner ∧
      (reachThreshold entry.call.env policy approved).approvals = approved.approvals := by
    unfold reachThreshold
    split
    · exact ⟨towards, rfl⟩
    · exact ⟨towards, rfl⟩
  refine ⟨invariant.validActive, invariant.validQueued, fun other => ?_,
    fun other given member => ?_, fun pending stored => ?_⟩
  · by_cases same : other = newOwner
    · subst same
      rw [extended, List.map_append, invariant.recorded other, List.map_singleton, named]
      simp only [pendingApprovals, shape.1, shape.2, if_pos, approvals_eq]
    · rw [approvalsSince_of_restarts (restarted other same), pendingApprovals]
      simp only [shape.1, if_neg (Ne.symm same), List.map_nil]
  · by_cases same : other = newOwner
    · subst same
      rw [extended, List.mem_append, List.mem_singleton] at member
      rcases member with old | rfl
      · exact invariant.stable other given old
      · rw [current]
    · rw [approvalsSince_of_restarts (restarted other same)] at member
      exact absurd member (by simp)
  · cases stored
    refine ⟨policy, inForce, ?_, ?_, ?_⟩
    · rw [shape.2, approvals_eq]
      refine List.nodup_append.mpr ⟨?_, List.nodup_singleton _, fun left leftMember right member => ?_⟩
      · unfold pendingApprovals
        split
        · exact List.nodup_nil
        · next pending stored =>
          split
          · obtain ⟨_, _, supported⟩ := invariant.supported pending stored
            exact supported.distinct
          · exact List.nodup_nil
      · rw [List.mem_singleton.mp member]
        exact fun same => fresh (same ▸ leftMember)
    · rw [shape.2, approvals_eq]
      intro member inApprovals
      rcases List.mem_append.mp inApprovals with old | new
      · unfold pendingApprovals at old
        split at old
        · exact absurd old (by simp)
        · next pending stored =>
          split at old
          · obtain ⟨other, otherInForce, supported⟩ := invariant.supported pending stored
            have same : other = policy := Option.some.inj (otherInForce.symm.trans inForce)
            exact same ▸ supported.listed member old
          · exact absurd old (by simp)
      · rw [List.mem_singleton.mp new]
        exact listed
    · intro set
      rw [shape.1, shape.2, extended]
      have lengths : approved.approvals.length =
          (approvalsSince account newOwner history ++ [entry]).length := by
        rw [approvals_eq, ← invariant.recorded newOwner, List.length_append, List.length_map,
          List.length_append]
        rfl
      unfold reachThreshold at set ⊢
      split
      · next reached =>
        -- The threshold is reached now: every approval so far is in the past.
        refine ⟨reached.2, ?_⟩
        have within : policy.threshold - 1 <
            (approvalsSince account newOwner history ++ [entry]).length := by
          have := valid.positive
          omega
        refine ⟨_, List.getElem?_eq_getElem within, ?_⟩
        have fits : entry.call.env.now + policy.delayMs < 2 ^ 64 := by
          have := valid.timely
          simp only [MAX_RECOVERY_DELAY_MS, DAY_MS] at this
          omega
        rw [wrapAdd_of_lt fits]
        have member := List.getElem_mem within
        have earlier : ((approvalsSince account newOwner history ++ [entry])[policy.threshold -
            1]).call.env.now ≤ entry.call.env.now := by
          rcases List.mem_append.mp member with old | new
          · exact past _ (mem_history_of_mem_approvalsSince old)
          · rw [List.mem_singleton.mp new]
        exact Nat.add_le_add_right earlier _
      · next unreached =>
        rw [if_neg unreached] at set
        -- `effectiveAt` was fixed by an earlier approval, which stays the decisive one.
        obtain ⟨pending, stored, same, effective⟩ := kept set
        obtain ⟨other, otherInForce, supported⟩ := invariant.supported pending stored
        have same' : other = policy := Option.some.inj (otherInForce.symm.trans inForce)
        subst same'
        obtain ⟨enough, decisive, found, delayed⟩ := supported.reached (effective ▸ set)
        rw [same] at found
        have within : other.threshold - 1 < (approvalsSince account newOwner history).length := by
          obtain ⟨bound, _⟩ := List.getElem?_eq_some_iff.mp found
          exact bound
        refine ⟨?_, decisive, ?_, effective ▸ delayed⟩
        · have := valid.positive
          rw [lengths, List.length_append]
          omega
        · rw [List.getElem?_append_left within]
          exact found

/-- Every accepted call keeps the invariant of every account. -/
theorem recoveryInvariant_step {history : List machine.Accepted} (entry : machine.Accepted)
    (account : Address) (early : entry.call.env.now < 2 ^ 63)
    (past : ∀ earlier ∈ history, earlier.call.env.now ≤ entry.call.env.now)
    (invariant : RecoveryInvariant account history (loadRecovery entry.before account.val)) :
    RecoveryInvariant account (history ++ [entry]) (loadRecovery entry.after account.val) := by
  have effect := effect_of_entry entry
  by_cases about : entry.call.operation.account = account.val
  · generalize operation_eq : entry.call.operation = operation at effect about
    generalize after_eq : entry.after = after at effect ⊢
    generalize output_eq : entry.output = output at effect
    have quiet : ∀ (after : RecoveryState),
        (∀ newOwner, restarts account newOwner entry = false) →
        (∀ newOwner, approves account newOwner entry = false) →
        after = loadRecovery entry.before account.val →
        RecoveryInvariant account (history ++ [entry]) after := by
      intro after running silent same
      rw [same]
      exact recoveryInvariant_of_quiet running silent invariant invariant.validActive
        invariant.validQueued rfl (.inl rfl)
    cases effect with
    | registered other =>
      exact quiet _ (fun _ => by rw [restarts, operation_eq])
        (fun _ => by rw [approves, operation_eq]) rfl
    | profileUpdated other =>
      exact quiet _ (fun _ => by rw [restarts, operation_eq])
        (fun _ => by rw [approves, operation_eq]) rfl
    | keyRotated other =>
      exact quiet _ (fun _ => by rw [restarts, operation_eq])
        (fun _ => by rw [approves, operation_eq]) rfl
    | deviceAuthorized other =>
      exact quiet _ (fun _ => by rw [restarts, operation_eq])
        (fun _ => by rw [approves, operation_eq]) rfl
    | deviceRevoked other =>
      exact quiet _ (fun _ => by rw [restarts, operation_eq])
        (fun _ => by rw [approves, operation_eq]) rfl
    | firstPolicySet other policy record known authorized valid unset =>
      obtain rfl : other = account := Subtype.ext about
      rw [loadRecovery_putRecovery, if_pos rfl]
      refine recoveryInvariant_of_quiet (fun _ => by rw [restarts, operation_eq])
        (fun _ => by rw [approves, operation_eq]) invariant ?_ ?_ rfl (.inr unset)
      · rintro _ ⟨⟩
        exact validPolicy_of_validatePolicy valid
      · rintro _ ⟨⟩
    | policyQueued other policy current record known authorized valid inForce =>
      obtain rfl : other = account := Subtype.ext about
      rw [loadRecovery_putRecovery, if_pos rfl]
      refine recoveryInvariant_of_quiet (fun _ => by rw [restarts, operation_eq])
        (fun _ => by rw [approves, operation_eq]) invariant invariant.validActive ?_ rfl (.inl rfl)
      rintro _ ⟨⟩
      exact validPolicy_of_validatePolicy valid
    | policyApplied other record pending known queued elapsed =>
      obtain rfl : other = account := Subtype.ext about
      rw [loadRecovery_putRecovery, if_pos rfl]
      refine recoveryInvariant_of_restarts (fun _ => by simp [restarts, operation_eq]) ?_ ?_ rfl
      · rintro _ ⟨⟩
        exact invariant.validQueued pending queued
      · rintro _ ⟨⟩
    | policyCancelled other record pending known authorized queued =>
      obtain rfl : other = account := Subtype.ext about
      rw [loadRecovery_putRecovery, if_pos rfl]
      refine recoveryInvariant_of_quiet (fun _ => by rw [restarts, operation_eq])
        (fun _ => by rw [approves, operation_eq]) invariant invariant.validActive ?_ rfl (.inl rfl)
      rintro _ ⟨⟩
    | recoveryProposed other guardian newOwner record policy approved known authorized inForce
        listed different approval =>
      obtain rfl : other = account := Subtype.ext about
      rw [loadRecovery_putRecovery, if_pos rfl]
      exact recoveryInvariant_of_proposal operation_eq rfl inForce listed approval early past
        invariant
    | recoveryCancelled other record pending known authorized inFlight =>
      obtain rfl : other = account := Subtype.ext about
      rw [loadRecovery_putRecovery, if_pos rfl]
      exact recoveryInvariant_of_restarts (fun _ => by simp [restarts, operation_eq])
        invariant.validActive invariant.validQueued rfl
    | recovered other record pending known inFlight reached elapsed =>
      obtain rfl : other = account := Subtype.ext about
      rw [loadRecovery_putRecovery, if_pos rfl]
      refine recoveryInvariant_of_restarts (fun _ => by simp [restarts, operation_eq])
        invariant.validActive ?_ rfl
      rintro _ ⟨⟩
  · rw [loadRecovery_of_other effect about]
    exact recoveryInvariant_of_quiet (fun _ => restarts_of_other about)
      (fun _ => approves_of_other about) invariant invariant.validActive invariant.validQueued rfl
      (.inl rfl)

/-- Along every chronological run the invariant holds of every account. -/
theorem recoveryInvariant_timed (calls : List Call)
    (early : ∀ call ∈ calls, call.env.now < 2 ^ 63) :
    ∀ history (entry : machine.Accepted), entry.call ∈ calls →
      ((∀ earlier ∈ history, earlier.call.env.now ≤ entry.call.time) ∧
        ∀ account : Address, RecoveryInvariant account history
          (loadRecovery entry.before account.val)) →
      (∀ earlier ∈ history ++ [entry], earlier.call.env.now ≤ entry.call.time) ∧
        ∀ account : Address, RecoveryInvariant account (history ++ [entry])
          (loadRecovery entry.after account.val) := by
  rintro history entry member ⟨past, invariant⟩
  refine ⟨fun earlier inHistory => ?_, fun account => ?_⟩
  · rcases List.mem_append.mp inHistory with old | new
    · exact past earlier old
    · rw [List.mem_singleton.mp new]
      exact le_refl _
  · exact recoveryInvariant_step entry account (early entry.call member) past (invariant account)

theorem recoveryInvariant_empty (account : Address) :
    RecoveryInvariant account [] (loadRecovery machine.initial account.val) := by
  refine ⟨?_, ?_, fun newOwner => rfl, ?_, ?_⟩
  · rintro policy ⟨⟩
  · rintro pending ⟨⟩
  · intro newOwner approval member
    exact absurd member (by simp [approvalsSince])
  · rintro pending ⟨⟩

/-! ### Owner changes -/

/-- The owner stored for an account. -/
def ownerOf (state : State) (account : Bytes) : Option Address :=
  (state.identities.get account).map fun record => record.owner

/-- An owner changes only by executing a recovery whose delay has elapsed. -/
theorem executed_of_owner_changed (entry : machine.Accepted) {account first second : Address}
    (owned : ownerOf entry.before account.val = some first)
    (taken : ownerOf entry.after account.val = some second) (changed : first ≠ second) :
    entry.call.operation = .executeRecovery ⟨account.val⟩ ∧
      (loadRecovery entry.after account.val).policy =
        (loadRecovery entry.before account.val).policy ∧
      ∃ pending, (loadRecovery entry.before account.val).pendingRecovery = some pending ∧
        pending.newOwner = second ∧ pending.effectiveAt ≠ 0 ∧
        pending.effectiveAt ≤ entry.call.env.now := by
  have effect := effect_of_entry entry
  generalize entry.call.operation = operation at effect ⊢
  generalize entry.after = after at effect taken ⊢
  generalize entry.output = output at effect
  have kept : ownerOf after account.val ≠ ownerOf entry.before account.val := by
    rw [owned, taken]
    exact fun same => changed (Option.some.inj same).symm
  have keeps : ∀ (other : Address) (record updated : IdentityRecord),
      entry.before.identities.get other.val = some record → updated.owner = record.owner →
      ownerOf (entry.before.putIdentity other updated) account.val =
        ownerOf entry.before account.val := by
    intro other record updated known same
    unfold ownerOf
    rw [putIdentity_identities, Store.get_put]
    split
    · next at_account => rw [at_account, known, Option.map_some, Option.map_some, same]
    · rfl
  cases effect with
  | registered other key keyVersion profileHash profileUri authorized fresh =>
    refine absurd ?_ kept
    unfold ownerOf
    rw [putIdentity_identities, Store.get_put]
    split
    · next at_account =>
      rw [ownerOf, at_account, fresh] at owned
      exact absurd owned (by simp)
    · rfl
  | profileUpdated other profileHash profileUri device record resolved authorized known =>
    exact (kept (keeps other record _ known rfl)).elim
  | keyRotated other key keyVersion record known =>
    exact (kept (keeps other record _ known rfl)).elim
  | recovered other record pending known inFlight reached elapsed =>
    by_cases same : account = other
    · subst same
      refine ⟨rfl, ?_, pending, inFlight, ?_, reached, elapsed⟩
      · rw [loadRecovery_putRecovery, if_pos rfl]
      · simpa [ownerOf] using taken
    · refine absurd ?_ kept
      have different : account.val ≠ other.val := fun equal => same (Subtype.ext equal)
      simp [ownerOf, different]
  | _ => exact absurd rfl kept

/-- What makes a recovery of `account` to `newOwner` legitimate at a time: distinct guardians of
the policy authorized it while that policy was in force, enough of them to reach the threshold,
and the policy's delay has passed since the approval that first reached it. -/
structure Secured (account newOwner : Address) (history : List machine.Accepted)
    (policy : RecoveryPolicy) (now : ℕ) : Prop where
  distinct : ((approvalsSince account newOwner history).map guardianOf).Nodup
  authorized : ∀ approval ∈ approvalsSince account newOwner history,
    guardianOf approval ∈ policy.guardians ∧
      approval.call.env.authority (guardianOf approval) = true ∧
      (loadRecovery approval.before account.val).policy = some policy
  positive : 1 ≤ policy.threshold
  enough : policy.threshold ≤ (approvalsSince account newOwner history).length
  delayed : ∃ decisive, (approvalsSince account newOwner history)[policy.threshold - 1]? =
      some decisive ∧ decisive.call.env.now + policy.delayMs ≤ now

theorem secured_of_invariant {account : Address} {history : List machine.Accepted}
    {recovery : RecoveryState} {pending : PendingRecovery} {now : ℕ}
    (invariant : RecoveryInvariant account history recovery)
    (stored : recovery.pendingRecovery = some pending) (reached : pending.effectiveAt ≠ 0)
    (elapsed : pending.effectiveAt ≤ now) :
    ∃ policy, recovery.policy = some policy ∧
      Secured account pending.newOwner history policy now := by
  obtain ⟨policy, inForce, supported⟩ := invariant.supported pending stored
  obtain ⟨enough, decisive, found, delayed⟩ := supported.reached reached
  have recorded := invariant.recorded pending.newOwner
  rw [pendingApprovals, stored] at recorded
  simp only [if_pos] at recorded
  refine ⟨policy, inForce, ?_, fun approval member => ⟨?_, ?_, ?_⟩, ?_, ?_, decisive, found,
    delayed.trans elapsed⟩
  · rw [recorded]
    exact supported.distinct
  · refine supported.listed _ ?_
    rw [← recorded]
    exact List.mem_map_of_mem member
  · exact authority_of_approves (approves_of_mem_approvalsSince member)
  · rw [invariant.stable pending.newOwner approval member, inForce]
  · exact (invariant.validActive policy inForce).positive
  · rw [← List.length_map guardianOf, recorded]
    exact enough

/-- Guardian recovery safety: an owner changes only through a secured recovery, and what is
stored as pending is always a duplicate-free set of guardians of the policy in force. -/
theorem guardian_recovery_safety (calls : List Call)
    (chronological : Machine.Chronological Call.time 0 calls)
    (early : ∀ call ∈ calls, call.env.now < 2 ^ 63) (account : Address) :
    (∀ earlier entry later, machine.history machine.initial calls = earlier ++ entry :: later →
      ∀ first second, ownerOf entry.before account.val = some first →
        ownerOf entry.after account.val = some second → first ≠ second →
        entry.call.operation = .executeRecovery ⟨account.val⟩ ∧
          ∃ policy, (loadRecovery entry.before account.val).policy = some policy ∧
            (loadRecovery entry.after account.val).policy = some policy ∧
            Secured account second earlier policy entry.call.env.now) ∧
      ∀ pending,
        (loadRecovery (machine.final machine.initial calls) account.val).pendingRecovery =
          some pending →
        ∃ policy, (loadRecovery (machine.final machine.initial calls) account.val).policy =
            some policy ∧
          pending.approvals.Nodup ∧ (∀ guardian ∈ pending.approvals, guardian ∈ policy.guardians) ∧
          (pending.effectiveAt ≠ 0 → policy.threshold ≤ pending.approvals.length) := by
  have initial : (∀ earlier ∈ ([] : List machine.Accepted), earlier.call.env.now ≤ 0) ∧
      ∀ account : Address, RecoveryInvariant account []
        (loadRecovery machine.initial account.val) :=
    ⟨fun earlier member => absurd member (by simp), recoveryInvariant_empty⟩
  have wait : ∀ (clock later : ℕ) (history : List machine.Accepted) (state : State),
      clock ≤ later →
      ((∀ earlier ∈ history, earlier.call.env.now ≤ clock) ∧
        ∀ account : Address, RecoveryInvariant account history (loadRecovery state account.val)) →
      (∀ earlier ∈ history, earlier.call.env.now ≤ later) ∧
        ∀ account : Address, RecoveryInvariant account history
          (loadRecovery state account.val) :=
    fun clock later history state passed invariant =>
      ⟨fun earlier member => (invariant.1 earlier member).trans passed, invariant.2⟩
  refine ⟨fun earlier entry later split first second owned taken changed => ?_,
    fun pending stored => ?_⟩
  · obtain ⟨executed, kept, pending, stored, towards, reached, elapsed⟩ :=
      executed_of_owner_changed entry owned taken changed
    have invariant := (machine.timed_before Call.time machine.initial 0 _ initial wait calls
      (recoveryInvariant_timed calls early) chronological split).2 account
    obtain ⟨policy, inForce, secured⟩ := secured_of_invariant invariant stored reached elapsed
    exact ⟨executed, policy, inForce, kept.trans inForce, towards ▸ secured⟩
  · have last : ∃ now, ∀ call ∈ calls, call.time ≤ now :=
      ⟨2 ^ 63, fun call member => (early call member).le⟩
    obtain ⟨now, passed⟩ := last
    have invariant := (machine.timed_induction Call.time machine.initial 0 _ initial wait calls
      (recoveryInvariant_timed calls early) chronological now (Nat.zero_le now) passed).2 account
    obtain ⟨policy, inForce, supported⟩ := invariant.supported pending stored
    exact ⟨policy, inForce, supported.distinct, supported.listed,
      fun set => (supported.reached set).1⟩

/-- Two of three guardians, with a delay of ten. -/
def twoOfThree : RecoveryPolicy :=
  ⟨[(Address.repeated 2).val, (Address.repeated 3).val, (Address.repeated 4).val], 2, 10⟩

/-- A run in which the first and the third of them recover an account: each call has the authority
of its own account only. -/
def recoveryRun : List Call :=
  let account := Address.repeated 1
  let newOwner := Address.repeated 5
  let env (signer : Address) (now : ℕ) : Env :=
    { Env.signedBy [] now with authority := fun address => address == signer.val }
  [⟨env account 0, .register ⟨account.val, List.replicate 32 7, 1, [], ""⟩⟩,
    ⟨env account 1, .setRecoveryPolicy ⟨account.val, some twoOfThree⟩⟩,
    ⟨env (Address.repeated 2) 2,
      .proposeRecovery ⟨account.val, (Address.repeated 2).val, newOwner.val⟩⟩,
    ⟨env (Address.repeated 4) 5,
      .proposeRecovery ⟨account.val, (Address.repeated 4).val, newOwner.val⟩⟩,
    ⟨env newOwner 15, .executeRecovery ⟨account.val⟩⟩]

/-- The last call of the run, after the others. -/
def recoveryExecuted : Except Failure (State × List Event) :=
  machine.step (machine.final machine.initial (recoveryRun.take 4))
    ⟨{ Env.signedBy [] 15 with authority := fun address => address == (Address.repeated 5).val },
      .executeRecovery ⟨(Address.repeated 1).val⟩⟩

theorem guardian_recovery_safety_recovered :
    ∃ earlier entry,
      machine.history machine.initial recoveryRun = earlier ++ [entry] ∧
      ownerOf entry.before (Address.repeated 1).val = some (Address.repeated 1) ∧
      ownerOf entry.after (Address.repeated 1).val = some (Address.repeated 5) ∧
      Secured (Address.repeated 1) (Address.repeated 5) earlier twoOfThree 15 := by
  have executes : recoveryExecuted.isOk = true := by decide +kernel
  cases answer : recoveryExecuted with
  | error failure =>
    rw [answer] at executes
    exact absurd executes (by simp [Except.isOk, Except.toBool])
  | ok committed =>
    obtain ⟨after, output⟩ := committed
    have history_eq := machine.history_concat_of_ok answer
    have final_eq := machine.final_concat_of_ok answer
    have owned : ownerOf (machine.final machine.initial (recoveryRun.take 4))
        (Address.repeated 1).val = some (Address.repeated 1) := by decide +kernel
    have inForce : (loadRecovery (machine.final machine.initial (recoveryRun.take 4))
        (Address.repeated 1).val).policy = some twoOfThree := by decide +kernel
    have taken : ownerOf after (Address.repeated 1).val = some (Address.repeated 5) := by
      rw [← final_eq]
      decide +kernel
    obtain ⟨safe, _⟩ := guardian_recovery_safety recoveryRun
      ⟨by decide, by decide⟩ (by decide) (Address.repeated 1)
    obtain ⟨_, policy, found, _, secured⟩ := safe _ _ [] history_eq _ _ owned taken (by decide)
    obtain rfl : twoOfThree = policy := Option.some.inj (inForce.symm.trans found)
    exact ⟨_, _, history_eq, owned, taken, secured⟩

end OpenSocial.Identity

/-
This file proves that the registry replaces a contract, and changes its admin, only
after the delay that was fixed when it was initialized.

A queued entry and a pending admin are each explained by the proposal that wrote
them: the admin of that time made it, and nothing proposed, applied or cancelled
since. Applying a proposal does not check its version again; that it is greater
follows because the active version of a name moves only when its proposal leaves
the queue.
-/

import OpenSocial.Library.Lasting
import OpenSocial.Registry.Effects

namespace OpenSocial.Registry

open Library Library.Word

variable {host : Host}

/-! ### Proposals in a history -/

/-- The admin of that time proposes an entry for a name, to be due no sooner than the delay. -/
structure ProposesEntry (name : String) (proposal : ContractEntry) (delay due : ℕ)
    (entry : (machine host).Accepted) : Prop where
  proposing : entry.call.operation = .proposeContract
    ⟨name, proposal.address.val, proposal.version, proposal.abiHash, proposal.notes⟩
  authorized : ∃ config, entry.before.config = some config ∧
    entry.call.env.authority config.admin.val = true
  delayed : entry.call.env.now + delay ≤ due

/-- Whether an accepted call proposes, applies or cancels an entry for a name. -/
def movesProposal (name : String) (entry : (machine host).Accepted) : Bool :=
  match entry.call.operation with
  | .proposeContract args => args.name == name
  | .applyContract args => args.name == name
  | .cancelContract args => args.name == name
  | _ => false

/-- The admin of that time proposed the entry, and nothing was proposed, applied or cancelled for
the name since. -/
def EntryProposedSince (name : String) (proposal : ContractEntry) (delay due : ℕ)
    (history : List (machine host).Accepted) : Prop :=
  LastsSince (fun _ => ProposesEntry name proposal delay due)
    (fun entry => movesProposal name entry = false) history

/-- The admin proposes a successor, to be due no sooner than the delay. -/
structure ProposesAdmin (admin newAdmin : Address) (delay due : ℕ)
    (entry : (machine host).Accepted) : Prop where
  proposing : entry.call.operation = .proposeAdmin ⟨newAdmin.val⟩
  authorized : ∃ config, entry.before.config = some config ∧ config.admin = admin ∧
    entry.call.env.authority admin.val = true
  delayed : entry.call.env.now + delay ≤ due

/-- Whether an accepted call proposes, cancels or executes a change of the admin. -/
def movesAdmin (entry : (machine host).Accepted) : Bool :=
  match entry.call.operation with
  | .proposeAdmin _ => true
  | .cancelAdmin => true
  | .executeAdmin => true
  | _ => false

/-- The admin proposed the successor, and no change of the admin was proposed, cancelled or executed
since. -/
def AdminProposedSince (admin newAdmin : Address) (delay due : ℕ)
    (history : List (machine host).Accepted) : Prop :=
  LastsSince (fun _ => ProposesAdmin admin newAdmin delay due)
    (fun entry => movesAdmin entry = false) history

/-! ### The invariant -/

/-- What every run keeps. -/
structure TimeLocked (history : List (machine host).Accepted) (state : State) : Prop where
  bounded : ∀ config, state.config = some config → config.upgradeDelayMs ≤ MAX_UPGRADE_DELAY_MS
  ahead : ∀ key queued, state.proposed.get key = some queued →
    ∃ current, state.active.get key = some current ∧ current.version < queued.version
  queued : ∀ name proposal, state.proposed.get (nameKey name) = some proposal →
    ∃ config, state.config = some config ∧
      EntryProposedSince name proposal config.upgradeDelayMs proposal.effectiveAt history
  pending : ∀ config newAdmin, state.config = some config → config.pendingAdmin = some newAdmin →
    AdminProposedSince config.admin newAdmin config.upgradeDelayMs config.adminTransferEffectiveAt
      history

theorem nameKey_inj {first second : String} : nameKey first = nameKey second ↔ first = second :=
  Util.str_inj

section Step

variable {env : Env} {operation : Operation} {state after : State} {events : List Event}

/-- The configuration stays, and with it the delay. -/
theorem config_step (effect : Effect host env state operation after events) {config : RegistryConfig}
    (configured : state.config = some config) :
    ∃ updated, after.config = some updated ∧ updated.upgradeDelayMs = config.upgradeDelayMs := by
  cases effect with
  | initialized admin upgradeDelayMs protocolVersion authorized unset =>
    rw [unset] at configured
    cases configured
  | adminProposed found newAdmin present =>
    rw [← Option.some.inj (present.symm.trans configured)]
    exact ⟨_, rfl, rfl⟩
  | adminCancelled found pending present =>
    rw [← Option.some.inj (present.symm.trans configured)]
    exact ⟨_, rfl, rfl⟩
  | adminChanged found newAdmin present =>
    rw [← Option.some.inj (present.symm.trans configured)]
    exact ⟨_, rfl, rfl⟩
  | _ => exact ⟨config, configured, rfl⟩

theorem bounded_step (effect : Effect host env state operation after events)
    (bounded : ∀ config, state.config = some config →
      config.upgradeDelayMs ≤ MAX_UPGRADE_DELAY_MS) :
    ∀ config, after.config = some config → config.upgradeDelayMs ≤ MAX_UPGRADE_DELAY_MS := by
  intro updated present
  cases configured : state.config with
  | some config =>
    obtain ⟨other, stored, delay⟩ := config_step effect configured
    rw [← Option.some.inj (stored.symm.trans present), delay]
    exact bounded config configured
  | none =>
    cases effect with
    | initialized admin upgradeDelayMs protocolVersion authorized unset delayBound =>
      rw [← Option.some.inj present]
      exact delayBound
    | _ => simp_all

/-- How the active entry of a key can change. -/
inductive ActiveStep (state : State) (operation : Operation) (key : Bytes) (now : ℕ)
    (updated : Option ContractEntry) : Prop where
  | kept (same : updated = state.active.get key)
  | first (absent : state.active.get key = none)
  | applied (name : String) (entry : ContractEntry) (named : key = nameKey name)
      (applying : operation = .applyContract ⟨name⟩)
      (queued : state.proposed.get key = some entry) (elapsed : entry.effectiveAt ≤ now)
      (activated : updated = some { entry with status := .active, updatedAt := now })
  | deprecated (entry : ContractEntry) (notes : String) (active : state.active.get key = some entry)
      (same : updated = some
        { entry with status := .deprecated, notes := notes, updatedAt := now })

theorem active_step (effect : Effect host env state operation after events) (key : Bytes) :
    ActiveStep state operation key env.now (after.active.get key) := by
  cases effect with
  | bootstrapped config name address version abiHash notes configured authorized versioned first =>
    by_cases about : key = nameKey name
    · rw [← about] at first
      exact .first first
    · refine .kept ?_
      rw [State.putActive, Store.get_put, if_neg about]
  | applied config name entry configured queued elapsed =>
    by_cases about : key = nameKey name
    · rw [← about] at queued
      refine .applied name entry about rfl queued elapsed ?_
      show (state.active.put (nameKey name) _).get key = _
      rw [Store.get_put, if_pos about]
    · refine .kept ?_
      show (state.active.put (nameKey name) _).get key = _
      rw [Store.get_put, if_neg about]
  | deprecated config name notes entry configured authorized active =>
    by_cases about : key = nameKey name
    · rw [← about] at active
      refine .deprecated entry notes active ?_
      rw [State.putActive, Store.get_put, if_pos about]
    · refine .kept ?_
      rw [State.putActive, Store.get_put, if_neg about]
  | _ => exact .kept rfl

/-- How the queued entry of a key can change. -/
inductive QueueStep (state : State) (operation : Operation) (key : Bytes)
    (updated : Option ContractEntry) : Prop where
  | kept (same : updated = state.proposed.get key)
      (quiet : ∀ name, operation ≠ .applyContract ⟨name⟩ ∨ key ≠ nameKey name)
  | emptied (none : updated = none)
  | queued (name : String) (current entry : ContractEntry) (named : key = nameKey name)
      (proposing : operation = .proposeContract
        ⟨name, entry.address.val, entry.version, entry.abiHash, entry.notes⟩)
      (active : state.active.get key = some current) (newer : current.version < entry.version)
      (stored : updated = some entry)

theorem queue_step (effect : Effect host env state operation after events) (key : Bytes) :
    QueueStep state operation key (after.proposed.get key) := by
  cases effect with
  | proposed config name address version abiHash notes current configured authorized active newer =>
    by_cases about : key = nameKey name
    · rw [← about] at active
      refine .queued name current ⟨name, address, version, abiHash, .proposed,
        wrapAdd 64 env.now config.upgradeDelayMs, notes, env.now⟩ about rfl active newer ?_
      rw [State.putProposed, Store.get_put, if_pos about]
    · refine .kept ?_ fun _ => .inl (by simp)
      rw [State.putProposed, Store.get_put, if_neg about]
  | applied config name entry =>
    by_cases about : key = nameKey name
    · refine .emptied ?_
      rw [State.removeProposed, Store.get_remove, if_pos about]
    · refine .kept ?_ fun other => ?_
      · rw [State.removeProposed, Store.get_remove, if_neg about]
        rfl
      · by_cases same : name = other
        · exact .inr (same ▸ about)
        · exact .inl fun applying => same (by cases applying; rfl)
  | cancelled config name entry =>
    by_cases about : key = nameKey name
    · refine .emptied ?_
      rw [State.removeProposed, Store.get_remove, if_pos about]
    · refine .kept ?_ fun _ => .inl (by simp)
      rw [State.removeProposed, Store.get_remove, if_neg about]
  | _ => exact .kept rfl fun _ => .inl (by simp)

/-- A queued version stays ahead of the active one. -/
theorem ahead_step (effect : Effect host env state operation after events)
    (ahead : ∀ key queued, state.proposed.get key = some queued →
      ∃ current, state.active.get key = some current ∧ current.version < queued.version) :
    ∀ key queued, after.proposed.get key = some queued →
      ∃ current, after.active.get key = some current ∧ current.version < queued.version := by
  intro key queued proposed
  -- Before the call there was an active entry with an earlier version, and nothing is applied.
  have earlier : ∃ current, state.active.get key = some current ∧
      current.version < queued.version ∧
      ∀ name, operation ≠ .applyContract ⟨name⟩ ∨ key ≠ nameKey name := by
    cases queue_step effect key with
    | kept same quiet =>
      rw [same] at proposed
      obtain ⟨current, active, newer⟩ := ahead key queued proposed
      exact ⟨current, active, newer, quiet⟩
    | emptied none => exact absurd (none.symm.trans proposed) (by simp)
    | queued name current entry named proposing active newer stored =>
      rw [← Option.some.inj (stored.symm.trans proposed)]
      exact ⟨current, active, newer, fun _ => .inl (by rw [proposing]; simp)⟩
  obtain ⟨current, active, newer, quiet⟩ := earlier
  cases active_step effect key with
  | kept same => exact ⟨current, same.trans active, newer⟩
  | first absent => exact absurd (absent.symm.trans active) (by simp)
  | applied name entry named applying =>
    rcases quiet name with other | other
    · exact absurd applying other
    · exact absurd named other
  | deprecated entry notes present same =>
    rw [← Option.some.inj (present.symm.trans active)] at newer
    exact ⟨_, same, newer⟩

end Step

/-- Every accepted call keeps every queued entry explained by its proposal. -/
theorem queued_step {history : List (machine host).Accepted} (entry : (machine host).Accepted)
    (early : entry.call.env.now < 2 ^ 63) (locked : TimeLocked history entry.before) :
    ∀ name proposal, entry.after.proposed.get (nameKey name) = some proposal →
      ∃ config, entry.after.config = some config ∧ EntryProposedSince name proposal
        config.upgradeDelayMs proposal.effectiveAt (history ++ [entry]) := by
  intro name proposal stored
  have effect := effect_of_entry entry
  by_cases quiet : movesProposal name entry = false
  · have same : entry.after.proposed.get (nameKey name) =
        entry.before.proposed.get (nameKey name) := by
      unfold movesProposal at quiet
      generalize entry.call.operation = operation at effect quiet
      generalize entry.after = after at effect ⊢
      generalize entry.output = output at effect
      have other : ∀ {moved : String}, (moved == name) = false → nameKey name ≠ nameKey moved :=
        fun different equal => beq_eq_false_iff_ne.mp different (nameKey_inj.mp equal).symm
      cases effect with
      | proposed config moved =>
        rw [State.putProposed, Store.get_put, if_neg (other quiet)]
      | applied config moved queued =>
        rw [State.removeProposed, Store.get_remove, if_neg (other quiet)]
        rfl
      | cancelled config moved =>
        rw [State.removeProposed, Store.get_remove, if_neg (other quiet)]
      | _ => rfl
    rw [same] at stored
    obtain ⟨config, configured, since⟩ := locked.queued name proposal stored
    obtain ⟨updated, present, delay⟩ := config_step effect configured
    refine ⟨updated, present, ?_⟩
    rw [delay]
    exact since.continues quiet
  · rw [Bool.not_eq_false] at quiet
    unfold movesProposal at quiet
    generalize operation_eq : entry.call.operation = operation at effect quiet
    generalize entry.after = after at effect stored ⊢
    generalize entry.output = output at effect
    cases effect with
    | bootstrapped config other address version abiHash notes configured authorized versioned
        first =>
      obtain rfl : other = name := beq_iff_eq.mp quiet
      obtain ⟨current, active, _⟩ := locked.ahead (nameKey other) proposal stored
      exact absurd (first.symm.trans active) (by simp)
    | proposed config other address version abiHash notes current configured authorized active
        newer =>
      obtain rfl : other = name := beq_iff_eq.mp quiet
      rw [State.putProposed, Store.get_put, if_pos rfl] at stored
      rw [← Option.some.inj stored]
      have bounded := locked.bounded config configured
      simp only [MAX_UPGRADE_DELAY_MS, DAY_MS] at bounded
      refine ⟨config, configured, LastsSince.begins
        ⟨operation_eq, ⟨config, configured, authorized⟩, ?_⟩⟩
      rw [wrapAdd_of_lt (by omega)]
    | applied config other =>
      obtain rfl : other = name := beq_iff_eq.mp quiet
      rw [State.removeProposed, Store.get_remove, if_pos rfl] at stored
      cases stored
    | cancelled config other =>
      obtain rfl : other = name := beq_iff_eq.mp quiet
      rw [State.removeProposed, Store.get_remove, if_pos rfl] at stored
      cases stored
    | _ => cases quiet

/-- Every accepted call keeps a pending admin explained by its proposal. -/
theorem pending_step {history : List (machine host).Accepted} (entry : (machine host).Accepted)
    (early : entry.call.env.now < 2 ^ 63) (locked : TimeLocked history entry.before) :
    ∀ config newAdmin, entry.after.config = some config → config.pendingAdmin = some newAdmin →
      AdminProposedSince config.admin newAdmin config.upgradeDelayMs
        config.adminTransferEffectiveAt (history ++ [entry]) := by
  intro updated newAdmin present inFlight
  have effect := effect_of_entry entry
  generalize operation_eq : entry.call.operation = operation at effect
  generalize entry.after = after at effect present
  generalize entry.output = output at effect
  have quiet : movesAdmin entry = false → entry.before.config = some updated →
      AdminProposedSince updated.admin newAdmin updated.upgradeDelayMs
        updated.adminTransferEffectiveAt (history ++ [entry]) :=
    fun silent configured => (locked.pending updated newAdmin configured inFlight).continues silent
  cases effect with
  | initialized admin upgradeDelayMs protocolVersion =>
    rw [← Option.some.inj present] at inFlight
    cases inFlight
  | adminProposed config proposedAdmin configured authorized =>
    rw [← Option.some.inj present] at inFlight ⊢
    obtain rfl : proposedAdmin = newAdmin := Option.some.inj inFlight
    have bounded := locked.bounded config configured
    simp only [MAX_UPGRADE_DELAY_MS, DAY_MS] at bounded
    refine LastsSince.begins ⟨operation_eq, ⟨config, configured, rfl, authorized⟩, ?_⟩
    rw [wrapAdd_of_lt (by omega)]
  | adminCancelled config pending configured =>
    rw [← Option.some.inj present] at inFlight
    cases inFlight
  | adminChanged config proposedAdmin configured =>
    rw [← Option.some.inj present] at inFlight
    cases inFlight
  | _ => exact quiet (by rw [movesAdmin, operation_eq]) present

/-! ### Every run -/

theorem timeLocked_run (host : Host) (calls : List Call)
    (early : ∀ call ∈ calls, call.env.now < 2 ^ 63) :
    TimeLocked ((machine host).history (machine host).initial calls)
      ((machine host).final (machine host).initial calls) := by
  refine Machine.invariant_of_faithful TimeLocked (fun entry => entry.call.env.now < 2 ^ 63)
    ⟨?_, ?_, ?_, ?_⟩ (fun history entry locked soon => ?_) calls fun entry member =>
      early entry.call ((machine host).mem_history_call member)
  · intro config configured
    cases configured
  · intro key queued stored
    exact absurd ((Store.get_empty key).symm.trans stored) (by simp)
  · intro name proposal stored
    exact absurd ((Store.get_empty _).symm.trans stored) (by simp)
  · intro config newAdmin configured
    cases configured
  · exact ⟨bounded_step (effect_of_entry entry) locked.bounded,
      ahead_step (effect_of_entry entry) locked.ahead, queued_step entry soon locked,
      pending_step entry soon locked⟩

/-- The invariant holds before every accepted call of a run. -/
theorem timeLocked_before {calls : List Call} (early : ∀ call ∈ calls, call.env.now < 2 ^ 63)
    {earlier later : List (machine host).Accepted} {entry : (machine host).Accepted}
    (split : (machine host).history (machine host).initial calls = earlier ++ entry :: later) :
    TimeLocked earlier entry.before := by
  obtain ⟨prior, post, calls_eq, history_eq, final_eq⟩ := (machine host).history_split split
  rw [← history_eq, ← final_eq]
  refine timeLocked_run host prior fun call member => early call ?_
  rw [calls_eq]
  exact List.mem_append_left _ member

/-- An active entry of a name is never removed, and only applying a proposal replaces it, by a greater
version; but for the first entry of a name, an entry becomes active only when a proposal is applied
that the then admin made at least the delay before, with none proposed, applied or cancelled for
the name since; the admin changes only when a change is executed that the then admin proposed at
least the delay before, with none proposed, cancelled or executed since; and the delay is fixed. -/
theorem registry_time_lock (host : Host) (calls : List Call)
    (early : ∀ call ∈ calls, call.env.now < 2 ^ 63) (earlier later : List (machine host).Accepted)
    (entry : (machine host).Accepted)
    (split : (machine host).history (machine host).initial calls = earlier ++ entry :: later) :
    (∀ key current, entry.before.active.get key = some current →
      ∃ updated, entry.after.active.get key = some updated ∧
        (current.version < updated.version ∨
          ∃ notes now status, updated =
            { current with status := status, notes := notes, updatedAt := now })) ∧
    (∀ key updated, entry.after.active.get key = some updated → updated.status = .active →
      entry.before.active.get key ≠ some updated →
      entry.before.active.get key = none ∨
        ∃ name config, key = nameKey name ∧ entry.call.operation = .applyContract ⟨name⟩ ∧
          entry.before.config = some config ∧
          EntryProposedSince name updated config.upgradeDelayMs entry.call.env.now earlier) ∧
    (∀ config updated, entry.before.config = some config → entry.after.config = some updated →
      updated.admin ≠ config.admin → entry.call.operation = .executeAdmin ∧
        AdminProposedSince config.admin updated.admin config.upgradeDelayMs entry.call.env.now
          earlier) ∧
    ∀ config, entry.before.config = some config →
      ∃ updated, entry.after.config = some updated ∧
        updated.upgradeDelayMs = config.upgradeDelayMs := by
  have locked := timeLocked_before early split
  have effect := effect_of_entry entry
  refine ⟨fun key current active => ?_, fun key updated active status changed => ?_,
    fun config updated configured present changed => ?_,
    fun config configured => config_step effect configured⟩
  · cases active_step effect key with
    | kept same =>
      exact ⟨current, same.trans active, .inr ⟨current.notes, current.updatedAt, current.status, rfl⟩⟩
    | first absent => exact absurd (absent.symm.trans active) (by simp)
    | applied name proposal named applying queued elapsed activated =>
      obtain ⟨found, foundActive, newer⟩ := locked.ahead key proposal queued
      rw [Option.some.inj (foundActive.symm.trans active)] at newer
      exact ⟨_, activated, .inl newer⟩
    | deprecated found notes foundActive same =>
      rw [Option.some.inj (foundActive.symm.trans active)] at same
      exact ⟨_, same, .inr ⟨notes, entry.call.env.now, .deprecated, rfl⟩⟩
  · cases active_step effect key with
    | kept same => exact absurd (same.symm.trans active) changed
    | first absent => exact .inl absent
    | applied name proposal named applying queued elapsed activated =>
      rw [named] at queued
      obtain ⟨config, configured, since⟩ := locked.queued name proposal queued
      have updated_eq := Option.some.inj (activated.symm.trans active)
      refine .inr ⟨name, config, named, applying, configured, ?_⟩
      rw [← updated_eq]
      refine since.weaken (fun _ first starts => ?_) fun _ kept => kept
      exact ⟨starts.proposing, starts.authorized, starts.delayed.trans elapsed⟩
    | deprecated found notes foundActive same =>
      rw [← Option.some.inj (same.symm.trans active)] at status
      cases status
  · generalize entry.call.operation = operation at effect ⊢
    generalize entry.after = after at effect present
    generalize entry.output = output at effect
    have unmoved : ∀ {other : RegistryConfig}, other.admin = config.admin → some other = some updated →
        False := by
      intro other same stored
      rw [← Option.some.inj stored] at changed
      exact changed same
    cases effect with
    | initialized admin upgradeDelayMs protocolVersion authorized unset =>
      rw [unset] at configured
      cases configured
    | adminProposed found newAdmin stored =>
      obtain rfl : found = config := Option.some.inj (stored.symm.trans configured)
      refine (unmoved ?_ present).elim
      rfl
    | adminCancelled found pending stored =>
      obtain rfl : found = config := Option.some.inj (stored.symm.trans configured)
      refine (unmoved ?_ present).elim
      rfl
    | adminChanged found newAdmin stored inFlight elapsed =>
      obtain rfl : found = config := Option.some.inj (stored.symm.trans configured)
      rw [← Option.some.inj present]
      refine ⟨rfl, (locked.pending found newAdmin configured inFlight).weaken ?_ fun _ kept => kept⟩
      exact fun _ first starts =>
        ⟨starts.proposing, starts.authorized, starts.delayed.trans elapsed⟩
    | _ => exact (unmoved rfl (configured.symm.trans present)).elim

/-- A run in which an admin replaces a contract after a delay of ten. -/
def upgradedRun : List Call :=
  let env := Env.signedBy []
  [⟨env 0, .init ⟨(Address.repeated 1).val, 10, 1⟩⟩,
    ⟨env 1, .proposeContract ⟨"token", (Address.repeated 2).val, 1, [], ""⟩⟩,
    ⟨env 2, .proposeContract ⟨"token", (Address.repeated 3).val, 2, [], ""⟩⟩,
    ⟨env 12, .applyContract ⟨"token"⟩⟩]

theorem registry_time_lock_upgradedRun :
    ∃ earlier entry config, (machine ⟨[], [], id⟩).history (machine ⟨[], [], id⟩).initial
        upgradedRun = earlier ++ [entry] ∧
      EntryProposedSince "token"
        ⟨"token", Address.repeated 3, 2, [], .active, 12, "", 12⟩ config.upgradeDelayMs 12 earlier ∧
      entry.before.config = some config := by
  have executes : ((machine ⟨[], [], id⟩).step ((machine ⟨[], [], id⟩).final
      (machine ⟨[], [], id⟩).initial (upgradedRun.take 3))
      ⟨Env.signedBy [] 12, .applyContract ⟨"token"⟩⟩).toBool = true := by decide +kernel
  obtain ⟨⟨after, output⟩, answer⟩ := exists_ok_of_toBool executes
  have history_eq := (machine ⟨[], [], id⟩).history_concat_of_ok answer
  have final_eq := (machine ⟨[], [], id⟩).final_concat_of_ok answer
  have active : after.active.get (nameKey "token") =
      some ⟨"token", Address.repeated 3, 2, [], .active, 12, "", 12⟩ := by
    rw [← final_eq]
    decide +kernel
  have replaced : ((machine ⟨[], [], id⟩).final (machine ⟨[], [], id⟩).initial
      (upgradedRun.take 3)).active.get (nameKey "token") =
      some ⟨"token", Address.repeated 2, 1, [], .active, 1, "", 1⟩ := by decide +kernel
  obtain ⟨_, becomes, _, _⟩ := registry_time_lock ⟨[], [], id⟩ upgradedRun (by decide) _ [] _
    history_eq
  rcases becomes _ _ active rfl (by rw [replaced]; decide) with absent | applied
  · exact absurd (absent.symm.trans replaced) (by simp)
  · obtain ⟨name, config, named, _, configured, since⟩ := applied
    rw [← nameKey_inj.mp named] at since
    exact ⟨_, _, config, history_eq, since, configured⟩

end OpenSocial.Registry

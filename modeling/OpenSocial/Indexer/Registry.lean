/-
This file compares the registry projection with the registry contract.

The contract keeps one pending proposal for a name; the projection keeps a row
for every name, address and version. A proposal that replaces a pending one under
another address or version leaves the old row proposed, an empty ABI hash leaves
an old one in place, and the cancellation of an admin transfer emits no event.
Along a run without these calls, and only along such a run, what the projection
holds as pending is what the contract holds, in every state reached.
-/

import OpenSocial.Indexer.Projections
import OpenSocial.Registry.Effects

namespace OpenSocial.Indexer

open Library Library.Word Registry

/-! ### What is compared -/

/-- What is compared of a proposal: its ABI hash and when it takes effect. -/
structure ProposalView where
  abiHash : Bytes
  effectiveAt : ℕ
  deriving DecidableEq, Repr

/-- The row of a contract version, if it is a proposed one. -/
def proposedRow (db : Database) (name : String) (address : Address) (version : ℕ) :
    Option ProposalView :=
  ((db.registryEntries.get (name, address, version)).filter fun row =>
    row.status == .proposed).map fun row => ⟨row.abiHash, row.effectiveAt⟩

/-- The pending proposal of a name, if it proposes this address and version. -/
def pendingProposal (state : State) (name : String) (address : Address) (version : ℕ) :
    Option ProposalView :=
  ((state.proposed.get (nameKey name)).filter fun entry =>
    entry.address == address && entry.version == version).map fun entry =>
      ⟨entry.abiHash, entry.effectiveAt⟩

/-- The admin the contract waits to hand over to. -/
def pendingAdminOf (state : State) : Option Address :=
  state.config.bind RegistryConfig.pendingAdmin

/-- The projection shows what is pending: of every name exactly the pending proposal, and an admin
transfer exactly when there is one. -/
structure RegistryRefined (state : State) (db : Database) : Prop where
  proposals : ∀ name address version,
    proposedRow db name address version = pendingProposal state name address version
  admin : db.registryPendingAdmin.isSome = (pendingAdminOf state).isSome

/-- A proposal that names what is pending already, and an ABI hash unless that had none. -/
def repeats (pending : ContractEntry) (args : ProposeContractArguments) : Bool :=
  pending.address.val == args.address && pending.version == args.version &&
    (args.abiHash != [] || pending.abiHash == [])

/-- The calls whose events tell all they did: no cancelled admin transfer, and no proposal that
replaces another one. -/
def toldByEvents (state : State) : Operation → Bool
  | .cancelAdmin => false
  | .proposeContract args =>
    (state.proposed.get (nameKey args.name)).elim true fun pending => repeats pending args
  | _ => true

theorem repeats_eq_true {pending : ContractEntry} {name notes : String} {address : Address}
    {version : ℕ} {abiHash : Bytes} :
    repeats pending ⟨name, address.val, version, abiHash, notes⟩ = true ↔
      pending.address = address ∧ pending.version = version ∧
        (abiHash = [] → pending.abiHash = []) := by
  simp only [repeats, Bool.and_eq_true, Bool.or_eq_true, beq_iff_eq, bne_iff_ne, and_assoc,
    Subtype.ext_iff, imp_iff_not_or, ne_eq]

theorem told_proposal {state : State} {args : ProposeContractArguments} :
    toldByEvents state (.proposeContract args) = true ↔
      ∀ pending, state.proposed.get (nameKey args.name) = some pending →
        repeats pending args = true := by
  rw [toldByEvents]
  cases state.proposed.get (nameKey args.name) with
  | none => simp
  | some pending => simp

/-! ### The invariant -/

/-- A pending proposal waits under its own name for an older active entry. -/
def Waiting (state : State) : Prop :=
  ∀ name entry, state.proposed.get (nameKey name) = some entry → entry.name = name ∧
    ∃ active, state.active.get (nameKey name) = some active ∧ active.version < entry.version

/-- A row that is not proposed is not newer than the active entry. -/
def Settled (state : State) (db : Database) : Prop :=
  ∀ name address version row, db.registryEntries.get (name, address, version) = some row →
    row.status ≠ .proposed →
    ∃ active, state.active.get (nameKey name) = some active ∧ version ≤ active.version

/-- What the calls that their events tell keep. -/
structure RegistryTracked (state : State) (db : Database) : Prop where
  refined : RegistryRefined state db
  waiting : Waiting state
  settled : Settled state db

/-! ### Rows after an event -/

section Rows

variable {db : Database} {state : State} {name other : String} {address place : Address}
  {version number : ℕ} {abiHash : Bytes} {status : ContractStatus} {effectiveAt ts : ℕ}

theorem proposedRow_eq_some {view : ProposalView} :
    proposedRow db name address version = some view ↔
      ∃ row, db.registryEntries.get (name, address, version) = some row ∧
        row.status = .proposed ∧ ⟨row.abiHash, row.effectiveAt⟩ = view := by
  simp only [proposedRow, Option.map_eq_some_iff, Option.filter_eq_some_iff, beq_iff_eq, and_assoc]

theorem get_upsertEntry (key : String × Address × ℕ) :
    (upsertEntry db name address version abiHash status effectiveAt ts).registryEntries.get key =
      if key = (name, address, version) then
        some (upsertedRow (db.registryEntries.get (name, address, version)) abiHash status
          effectiveAt ts)
      else db.registryEntries.get key := by
  rw [upsertEntry, Store.get_put]

theorem upsertedRow_status (existing : Option RegistryRow) :
    (upsertedRow existing abiHash status effectiveAt ts).status = status := by
  cases existing <;> rfl

/-- An upsert leaves every other row. -/
theorem proposedRow_upsertEntry_other
    (different : (other, place, number) ≠ (name, address, version)) :
    proposedRow (upsertEntry db name address version abiHash status effectiveAt ts) other place
      number = proposedRow db other place number := by
  rw [proposedRow, get_upsertEntry, if_neg different, proposedRow]

/-- A row that is written as active or deprecated is no proposal. -/
theorem proposedRow_upsertEntry_settled (settled : status ≠ .proposed) :
    proposedRow (upsertEntry db name address version abiHash status effectiveAt ts) name address
      version = none := by
  rw [proposedRow, get_upsertEntry, if_pos rfl, Option.filter_some, upsertedRow_status,
    if_neg (by simpa using settled), Option.map_none]

/-- A row that is written as proposed keeps an old ABI hash if it is given none. -/
theorem proposedRow_upsertEntry_proposed :
    proposedRow (upsertEntry db name address version abiHash .proposed effectiveAt ts) name address
      version =
      some ⟨(upsertedRow (db.registryEntries.get (name, address, version)) abiHash .proposed
        effectiveAt ts).abiHash, effectiveAt⟩ := by
  rw [proposedRow_eq_some]
  refine ⟨_, by rw [get_upsertEntry, if_pos rfl], upsertedRow_status _, ?_⟩
  cases db.registryEntries.get (name, address, version) <;> rfl

/-- Deleting the proposed rows of a name leaves every other one. -/
theorem proposedRow_deleteProposed :
    proposedRow (deleteProposed db name) other place number =
      if other = name then none else proposedRow db other place number := by
  rw [proposedRow, proposedRow, deleteProposed, Store.get_keep]
  cases db.registryEntries.get (other, place, number) with
  | none => simp
  | some row =>
    by_cases own : other = name
    · by_cases proposed : row.status = .proposed
      · simp [own, proposed, Option.filter_some]
      · simp [own, proposed, Option.filter_some]
    · simp [own, Option.filter_some]

/-! ### The pending proposal after a call -/

theorem pendingProposal_eq_some {view : ProposalView} :
    pendingProposal state name address version = some view ↔
      ∃ entry, state.proposed.get (nameKey name) = some entry ∧ entry.address = address ∧
        entry.version = version ∧ ⟨entry.abiHash, entry.effectiveAt⟩ = view := by
  simp only [pendingProposal, Option.map_eq_some_iff, Option.filter_eq_some_iff, beq_iff_eq,
    Bool.and_eq_true, and_assoc]

theorem nameKey_inj : nameKey name = nameKey other ↔ name = other :=
  Util.str_inj

theorem pendingProposal_none (absent : state.proposed.get (nameKey name) = none) :
    pendingProposal state name address version = none := by
  rw [pendingProposal, absent]
  rfl

theorem pendingProposal_putProposed_other (entry : ContractEntry) (different : other ≠ name) :
    pendingProposal (state.putProposed name entry) other address version =
      pendingProposal state other address version := by
  have distinct : nameKey other ≠ nameKey name := fun same => different (nameKey_inj.mp same)
  rw [pendingProposal, State.putProposed, Store.get_put, if_neg distinct, pendingProposal]

theorem pendingProposal_putProposed (entry : ContractEntry) :
    pendingProposal (state.putProposed name entry) name address version =
      if entry.address = address ∧ entry.version = version then
        some ⟨entry.abiHash, entry.effectiveAt⟩
      else none := by
  rw [pendingProposal, State.putProposed, Store.get_put, if_pos rfl, Option.filter_some]
  by_cases same : entry.address = address ∧ entry.version = version
  · rw [if_pos same, if_pos (by simpa [Subtype.ext_iff] using same), Option.map_some]
  · rw [if_neg same, if_neg (by simpa [Subtype.ext_iff] using same), Option.map_none]

theorem pendingProposal_removeProposed :
    pendingProposal (state.removeProposed name) other address version =
      if other = name then none else pendingProposal state other address version := by
  rw [pendingProposal, State.removeProposed, Store.get_remove]
  by_cases same : other = name
  · rw [if_pos (congrArg nameKey same), if_pos same]
    rfl
  · rw [if_neg fun equal => same (nameKey_inj.mp equal), if_neg same, pendingProposal]

end Rows

/-! ### Keeping the invariant -/

section Keep

variable {db : Database} {state after : State} {name : String} {address : Address} {version : ℕ}
  {abiHash : Bytes} {status : ContractStatus} {effectiveAt ts : ℕ}

/-- Every active entry stays or makes way for one that is not older. -/
def Advances (state after : State) : Prop :=
  ∀ name active, state.active.get (nameKey name) = some active →
    ∃ later, after.active.get (nameKey name) = some later ∧ active.version ≤ later.version

theorem advances_putActive {entry : ContractEntry}
    (notOlder : ∀ active, state.active.get (nameKey name) = some active →
      active.version ≤ entry.version) :
    Advances state (state.putActive name entry) := by
  intro other active stored
  by_cases same : nameKey other = nameKey name
  · refine ⟨entry, by rw [State.putActive, Store.get_put, if_pos same], notOlder active ?_⟩
    rw [← same, stored]
  · exact ⟨active, by rw [State.putActive, Store.get_put, if_neg same, stored], le_refl _⟩

theorem settled_upsertEntry (settled : Settled state db) (advances : Advances state after)
    (covered : status ≠ .proposed →
      ∃ active, after.active.get (nameKey name) = some active ∧ version ≤ active.version) :
    Settled after (upsertEntry db name address version abiHash status effectiveAt ts) := by
  intro other place number row found decided
  rw [get_upsertEntry] at found
  split at found
  · next same =>
    rw [Prod.mk.injEq, Prod.mk.injEq] at same
    obtain ⟨rfl, rfl, rfl⟩ := same
    rw [← Option.some.inj found, upsertedRow_status] at decided
    exact covered decided
  · obtain ⟨active, stored, older⟩ := settled other place number row found decided
    obtain ⟨later, stored, notOlder⟩ := advances other active stored
    exact ⟨later, stored, older.trans notOlder⟩

/-- A new active entry under the pending version keeps every proposal waiting. -/
theorem waiting_putActive (waiting : Waiting state) {entry : ContractEntry}
    (older : ∀ pending, state.proposed.get (nameKey name) = some pending →
      entry.version < pending.version) :
    Waiting (state.putActive name entry) := by
  intro other pending queued
  obtain ⟨named, active, stored, newer⟩ := waiting other pending queued
  refine ⟨named, ?_⟩
  by_cases same : other = name
  · subst same
    exact ⟨entry, by rw [State.putActive, Store.get_put, if_pos rfl], older pending queued⟩
  · have distinct : nameKey other ≠ nameKey name := fun equal => same (nameKey_inj.mp equal)
    exact ⟨active, by rw [State.putActive, Store.get_put, if_neg distinct, stored], newer⟩

theorem waiting_removeProposed (waiting : Waiting state) :
    Waiting (state.removeProposed name) := by
  intro other pending queued
  rw [State.removeProposed, Store.get_remove] at queued
  split at queued
  · exact absurd queued (by simp)
  · exact waiting other pending queued

/-- A proposed row is of the pending proposal, so of a version newer than the active one. -/
theorem newer_of_proposed (tracked : RegistryTracked state db) {row : RegistryRow}
    (found : db.registryEntries.get (name, address, version) = some row)
    (proposed : row.status = .proposed) :
    ∃ entry active, state.proposed.get (nameKey name) = some entry ∧ entry.address = address ∧
      entry.version = version ∧ entry.abiHash = row.abiHash ∧
      state.active.get (nameKey name) = some active ∧ active.version < version := by
  have view := proposedRow_eq_some.mpr ⟨row, found, proposed, rfl⟩
  rw [tracked.refined.proposals, pendingProposal_eq_some] at view
  obtain ⟨entry, queued, rfl, rfl, same⟩ := view
  obtain ⟨_, active, stored, newer⟩ := tracked.waiting name entry queued
  rw [ProposalView.mk.injEq] at same
  exact ⟨entry, active, queued, rfl, rfl, same.1, stored, newer⟩

/-- A version above the active one has a row only as the pending proposal. -/
theorem proposed_of_newer (tracked : RegistryTracked state db) {row : RegistryRow}
    {active : ContractEntry} (stored : state.active.get (nameKey name) = some active)
    (newer : active.version < version)
    (found : db.registryEntries.get (name, address, version) = some row) :
    row.status = .proposed := by
  by_contra decided
  obtain ⟨other, same, older⟩ := tracked.settled name address version row found decided
  rw [stored, Option.some.injEq] at same
  subst same
  omega

/-- The first entry of a name is inserted as active; nothing was pending. -/
theorem tracked_bootstrapped (tracked : RegistryTracked state db)
    (first : state.active.get (nameKey name) = none) (entry : ContractEntry)
    (versioned : entry.version = version) :
    RegistryTracked (state.putActive name entry)
      (upsertEntry db name address version [] .active effectiveAt ts) := by
  have idle : state.proposed.get (nameKey name) = none := by
    cases queued : state.proposed.get (nameKey name) with
    | none => rfl
    | some pending =>
      obtain ⟨_, active, stored, _⟩ := tracked.waiting name pending queued
      exact absurd (stored.symm.trans first) (by simp)
  refine ⟨⟨fun other place number => ?_, tracked.refined.admin⟩, ?_, ?_⟩
  · change _ = pendingProposal state other place number
    by_cases same : (other, place, number) = (name, address, version)
    · rw [Prod.mk.injEq, Prod.mk.injEq] at same
      obtain ⟨rfl, rfl, rfl⟩ := same
      rw [proposedRow_upsertEntry_settled (by decide), pendingProposal_none idle]
    · rw [proposedRow_upsertEntry_other same, tracked.refined.proposals]
  · exact waiting_putActive tracked.waiting fun pending queued =>
      absurd (queued.symm.trans idle) (by simp)
  · refine settled_upsertEntry tracked.settled
      (advances_putActive fun active stored => absurd (stored.symm.trans first) (by simp))
      fun _ => ⟨entry, ?_, versioned.ge⟩
    rw [State.putActive, Store.get_put, if_pos rfl]

/-- A proposal that is alone, or repeats the pending one, is written as the only proposed row. -/
theorem tracked_proposed (tracked : RegistryTracked state db) {current entry : ContractEntry}
    (active : state.active.get (nameKey name) = some current)
    (newer : current.version < entry.version) (named : entry.name = name)
    (placed : entry.address = address) (versioned : entry.version = version)
    (hashed : entry.abiHash = abiHash)
    (alone : ∀ pending, state.proposed.get (nameKey name) = some pending →
      pending.address = address ∧ pending.version = version ∧
        (abiHash = [] → pending.abiHash = [])) :
    RegistryTracked (state.putProposed name entry)
      (upsertEntry db name address version abiHash .proposed entry.effectiveAt ts) := by
  subst named placed versioned hashed
  refine ⟨⟨fun other place number => ?_, tracked.refined.admin⟩, ?_, ?_⟩
  · by_cases same : (other, place, number) = (entry.name, entry.address, entry.version)
    · rw [Prod.mk.injEq, Prod.mk.injEq] at same
      obtain ⟨rfl, rfl, rfl⟩ := same
      rw [proposedRow_upsertEntry_proposed, pendingProposal_putProposed, if_pos ⟨rfl, rfl⟩]
      cases found : db.registryEntries.get (entry.name, entry.address, entry.version) with
      | none => rfl
      | some row =>
        have proposed := proposed_of_newer tracked active newer found
        obtain ⟨pending, _, queued, _, _, kept, _⟩ := newer_of_proposed tracked found proposed
        rw [upsertedRow]
        by_cases hashless : entry.abiHash = []
        · rw [if_pos hashless, ← kept, (alone pending queued).2.2 hashless, hashless]
        · rw [if_neg hashless]
    · rw [proposedRow_upsertEntry_other same, tracked.refined.proposals]
      by_cases own : other = entry.name
      · subst own
        have elsewhere : ¬(entry.address = place ∧ entry.version = number) := by
          rintro ⟨rfl, rfl⟩
          exact same rfl
        rw [pendingProposal_putProposed, if_neg elsewhere, Option.eq_none_iff_forall_ne_some]
        intro view old
        obtain ⟨pending, queued, placed, versioned, _⟩ := pendingProposal_eq_some.mp old
        obtain ⟨samePlace, sameVersion, _⟩ := alone pending queued
        exact elsewhere ⟨samePlace.symm.trans placed, sameVersion.symm.trans versioned⟩
      · rw [pendingProposal_putProposed_other entry own]
  · intro other pending queued
    rw [State.putProposed, Store.get_put] at queued
    split at queued
    · next same =>
      have same := nameKey_inj.mp same
      subst same
      cases queued
      exact ⟨rfl, current, active, newer⟩
    · exact tracked.waiting other pending queued
  · exact settled_upsertEntry tracked.settled (fun _ active stored => ⟨active, stored, le_refl _⟩)
      fun decided => absurd rfl decided

/-- An applied proposal turns its row active, and nothing is pending any more. -/
theorem tracked_applied (tracked : RegistryTracked state db) {entry changed : ContractEntry}
    (queued : state.proposed.get (nameKey name) = some entry)
    (versioned : changed.version = entry.version) :
    RegistryTracked ((state.putActive name changed).removeProposed name)
      (upsertEntry db name entry.address entry.version [] .active effectiveAt ts) := by
  obtain ⟨named, active, stored, newer⟩ := tracked.waiting name entry queued
  have advances : Advances state (state.putActive name changed) := by
    refine advances_putActive fun other same => ?_
    cases same.symm.trans stored
    omega
  refine ⟨⟨fun other place number => ?_, tracked.refined.admin⟩, ?_, ?_⟩
  · rw [pendingProposal_removeProposed]
    change _ = if other = name then none else pendingProposal state other place number
    by_cases same : (other, place, number) = (name, entry.address, entry.version)
    · rw [Prod.mk.injEq, Prod.mk.injEq] at same
      obtain ⟨rfl, rfl, rfl⟩ := same
      rw [proposedRow_upsertEntry_settled (by decide), if_pos rfl]
    · rw [proposedRow_upsertEntry_other same, tracked.refined.proposals]
      by_cases own : other = name
      · subst own
        rw [if_pos rfl, Option.eq_none_iff_forall_ne_some]
        intro view old
        obtain ⟨pending, found, rfl, rfl, _⟩ := pendingProposal_eq_some.mp old
        cases found.symm.trans queued
        exact same rfl
      · rw [if_neg own]
  · refine waiting_putActive (waiting_removeProposed tracked.waiting) fun pending found => ?_
    rw [State.removeProposed, Store.get_remove, if_pos rfl] at found
    exact absurd found (by simp)
  · refine settled_upsertEntry tracked.settled advances fun _ => ⟨changed, ?_, versioned.ge⟩
    rw [State.removeProposed, State.putActive, Store.get_put, if_pos rfl]

/-- A cancellation deletes the proposed rows of its name. -/
theorem tracked_cancelled (tracked : RegistryTracked state db) :
    RegistryTracked (state.removeProposed name) (deleteProposed db name) := by
  refine ⟨⟨fun other place number => ?_, tracked.refined.admin⟩,
    waiting_removeProposed tracked.waiting, ?_⟩
  · rw [pendingProposal_removeProposed, proposedRow_deleteProposed, tracked.refined.proposals]
  · intro other place number row found decided
    rw [deleteProposed, Store.get_keep, Option.filter_eq_some_iff] at found
    exact tracked.settled other place number row found.1 decided

/-- Deprecating the active entry leaves a newer proposal alone. -/
theorem tracked_deprecated (tracked : RegistryTracked state db) {entry changed : ContractEntry}
    (active : state.active.get (nameKey name) = some entry)
    (versioned : changed.version = entry.version) :
    RegistryTracked (state.putActive name changed)
      (upsertEntry db name entry.address entry.version [] .deprecated effectiveAt ts) := by
  refine ⟨⟨fun other place number => ?_, tracked.refined.admin⟩, ?_, ?_⟩
  · change _ = pendingProposal state other place number
    by_cases same : (other, place, number) = (name, entry.address, entry.version)
    · rw [Prod.mk.injEq, Prod.mk.injEq] at same
      obtain ⟨rfl, rfl, rfl⟩ := same
      rw [proposedRow_upsertEntry_settled (by decide), ← tracked.refined.proposals, eq_comm,
        Option.eq_none_iff_forall_ne_some]
      intro view old
      obtain ⟨row, found, proposed, _⟩ := proposedRow_eq_some.mp old
      obtain ⟨_, current, _, _, _, _, stored, newer⟩ := newer_of_proposed tracked found proposed
      cases stored.symm.trans active
      exact absurd newer (lt_irrefl _)
    · rw [proposedRow_upsertEntry_other same, tracked.refined.proposals]
  · refine waiting_putActive tracked.waiting fun pending queued => ?_
    obtain ⟨_, current, stored, newer⟩ := tracked.waiting name pending queued
    cases stored.symm.trans active
    omega
  · refine settled_upsertEntry tracked.settled (advances_putActive fun current stored => ?_)
      fun _ => ⟨changed, ?_, versioned.ge⟩
    · cases stored.symm.trans active
      exact versioned.ge
    · rw [State.putActive, Store.get_put, if_pos rfl]

/-- A replaced proposal that is another one leaves a row of its own, or its ABI hash. -/
theorem repeats_of_refined (tracked : RegistryTracked state db) {pending entry : ContractEntry}
    (queued : state.proposed.get (nameKey name) = some pending)
    (refined : RegistryRefined (state.putProposed name entry)
      (upsertEntry db name entry.address entry.version entry.abiHash .proposed effectiveAt ts)) :
    pending.address = entry.address ∧ pending.version = entry.version ∧
      (entry.abiHash = [] → pending.abiHash = []) := by
  have listed : proposedRow db name pending.address pending.version =
      some ⟨pending.abiHash, pending.effectiveAt⟩ := by
    rw [tracked.refined.proposals, pendingProposal_eq_some]
    exact ⟨pending, queued, rfl, rfl, rfl⟩
  have after := refined.proposals name pending.address pending.version
  rw [pendingProposal_putProposed] at after
  by_cases same : entry.address = pending.address ∧ entry.version = pending.version
  · obtain ⟨place, number⟩ := same
    refine ⟨place.symm, number.symm, fun hashless => ?_⟩
    rw [if_pos ⟨place, number⟩, place, number, proposedRow_upsertEntry_proposed] at after
    obtain ⟨row, found, _, view⟩ := proposedRow_eq_some.mp listed
    rw [found, upsertedRow, if_pos hashless, Option.some.injEq, ProposalView.mk.injEq] at after
    rw [ProposalView.mk.injEq] at view
    rw [← view.1, after.1, hashless]
  · have elsewhere : (name, pending.address, pending.version) ≠
        (name, entry.address, entry.version) := by
      intro equal
      rw [Prod.mk.injEq, Prod.mk.injEq] at equal
      exact same ⟨equal.2.1.symm, equal.2.2.symm⟩
    rw [if_neg same, proposedRow_upsertEntry_other elsewhere, listed] at after
    exact absurd after (by simp)

theorem tracked_empty : RegistryTracked empty .empty where
  refined := ⟨fun _ _ _ => rfl, rfl⟩
  waiting := fun name entry queued => absurd queued (by simp [empty])
  settled := fun name address version row found => absurd found (by simp [Database.empty])

end Keep

/-! ### One call -/

section Step

variable (sdk : Sdk) {host : Host}

/-- A call that its events tell keeps the projection and the contract together. -/
theorem registry_keep {env : Env} {operation : Operation} {state after : State}
    {events : List Event} (effect : Effect host env state operation after events) {db : Database}
    {records : List LogEvent} (logs : records.map LogEvent.event = events.map .registry)
    (told : toldByEvents state operation = true) (tracked : RegistryTracked state db) :
    RegistryTracked after (records.foldl (applyEvent sdk) db) := by
  cases effect with
  | initialized admin upgradeDelayMs protocolVersion authorized unset delayBound versioned =>
    rw [List.map_eq_nil_iff.mp logs]
    have admin := tracked.refined.admin
    rw [pendingAdminOf, unset] at admin
    exact ⟨⟨tracked.refined.proposals, admin⟩, tracked.waiting, tracked.settled⟩
  | bootstrapped config name address version abiHash notes configured authorized versioned first =>
    obtain ⟨log, event, applied⟩ := foldl_applyEvent_singleton sdk db logs
    rw [applied, applyEvent, event]
    exact tracked_bootstrapped tracked first _ rfl
  | proposed config name address version abiHash notes current configured authorized active newer =>
    obtain ⟨log, event, applied⟩ := foldl_applyEvent_singleton sdk db logs
    rw [applied, applyEvent, event]
    refine tracked_proposed tracked active newer rfl rfl rfl rfl fun pending queued => ?_
    exact repeats_eq_true.mp (told_proposal.mp told pending queued)
  | applied config name entry configured queued elapsed =>
    obtain ⟨log, event, applied⟩ := foldl_applyEvent_singleton sdk db logs
    rw [applied, applyEvent, event, (tracked.waiting name entry queued).1]
    exact tracked_applied tracked queued rfl
  | cancelled config name entry configured authorized queued =>
    obtain ⟨log, event, applied⟩ := foldl_applyEvent_singleton sdk db logs
    rw [applied, applyEvent, event]
    exact tracked_cancelled tracked
  | deprecated config name notes entry configured authorized active notYet =>
    obtain ⟨log, event, applied⟩ := foldl_applyEvent_singleton sdk db logs
    rw [applied, applyEvent, event]
    exact tracked_deprecated tracked active rfl
  | adminProposed config newAdmin configured authorized different =>
    obtain ⟨log, event, applied⟩ := foldl_applyEvent_singleton sdk db logs
    rw [applied, applyEvent, event]
    exact ⟨⟨tracked.refined.proposals, rfl⟩, tracked.waiting, tracked.settled⟩
  | adminCancelled config pending configured authorized inFlight => exact absurd told Bool.false_ne_true
  | adminChanged config newAdmin configured inFlight elapsed =>
    obtain ⟨log, event, applied⟩ := foldl_applyEvent_singleton sdk db logs
    rw [applied, applyEvent, event]
    exact ⟨⟨tracked.refined.proposals, rfl⟩, tracked.waiting, tracked.settled⟩

/-- A call that its events do not tell parts the projection from the contract. -/
theorem registry_breaks {env : Env} {operation : Operation} {state after : State}
    {events : List Event} (effect : Effect host env state operation after events) {db : Database}
    {records : List LogEvent} (logs : records.map LogEvent.event = events.map .registry)
    (untold : ¬ toldByEvents state operation = true) (tracked : RegistryTracked state db) :
    ¬ RegistryRefined after (records.foldl (applyEvent sdk) db) := by
  intro refined
  cases effect with
  | bootstrapped config name address version abiHash notes configured authorized versioned first =>
    refine untold (told_proposal.mpr fun pending queued => ?_)
    obtain ⟨_, active, stored, _⟩ := tracked.waiting name pending queued
    exact absurd (stored.symm.trans first) (by simp)
  | proposed config name address version abiHash notes current configured authorized active newer =>
    obtain ⟨log, event, applied⟩ := foldl_applyEvent_singleton sdk db logs
    rw [applied, applyEvent, event] at refined
    refine untold (told_proposal.mpr fun pending queued => repeats_eq_true.mpr ?_)
    exact repeats_of_refined tracked queued refined
  | adminCancelled config pending configured authorized inFlight =>
    rw [List.map_eq_nil_iff.mp logs] at refined
    have before := tracked.refined.admin
    rw [pendingAdminOf, configured, Option.bind_some, inFlight] at before
    exact absurd (before.symm.trans refined.admin) (by simp [pendingAdminOf, State.putConfig])
  | _ => exact untold rfl

end Step

/-! ### Every run -/

/-- The projection shows what is pending in every state a run reaches exactly when the run
cancels no admin transfer and no proposal replaces another one. -/
theorem registry_refined_iff (sdk : Sdk) (host : Host) (calls : List Call) :
    (machine host).RelatedThroughout (List.map ProtocolEvent.registry) LogEvent.event
        (applyEvent sdk) empty .empty RegistryRefined calls ↔
      ∀ entry ∈ (machine host).history empty calls,
        toldByEvents entry.before entry.call.operation = true := by
  refine Machine.relatedThroughout_iff RegistryTracked
    (fun state call => toldByEvents state call.operation = true) ?_ ?_ ?_ ?_ ?_ calls
  · exact tracked_empty
  · exact fun state database tracked => tracked.refined
  · exact fun entry database records tracked logs told =>
      registry_keep sdk (effect_of_entry entry) logs told tracked
  · exact fun entry database records tracked logs untold =>
      registry_breaks sdk (effect_of_entry entry) logs untold tracked
  · exact fun events => ⟨logOf events, map_event_logOf events⟩

/-- A run in which a proposal is replaced before it applies. -/
def replacedRun : List Call :=
  let admin := Address.repeated 1
  let env := Env.signedBy admin.val
  [⟨env 0, .init ⟨admin.val, 10, 1⟩⟩,
    ⟨env 1, .proposeContract ⟨"token", (Address.repeated 2).val, 1, [], ""⟩⟩,
    ⟨env 2, .proposeContract ⟨"token", (Address.repeated 3).val, 2, [], ""⟩⟩,
    ⟨env 3, .proposeContract ⟨"token", (Address.repeated 4).val, 3, [], ""⟩⟩]

/-- The log of that run. -/
def replacedLog : List LogEvent :=
  let contract := machine ⟨[], [], id⟩
  logOf (contract.emitted (List.map ProtocolEvent.registry) (contract.history empty replacedRun))

/-- The row of a replaced proposal stays proposed. -/
theorem replaced_proposal_kept :
    (machine ⟨[], [], id⟩).Logs (List.map ProtocolEvent.registry) LogEvent.event
        ((machine ⟨[], [], id⟩).history empty replacedRun) replacedLog ∧
      pendingProposal ((machine ⟨[], [], id⟩).final empty replacedRun) "token"
        (Address.repeated 3) 2 = none ∧
      proposedRow (replayProjections Sdk.standard replacedLog) "token" (Address.repeated 3) 2 =
        some ⟨[], 12⟩ ∧
      ¬ RegistryRefined ((machine ⟨[], [], id⟩).final empty replacedRun)
        (replayProjections Sdk.standard replacedLog) := by
  have replaced : pendingProposal ((machine ⟨[], [], id⟩).final empty replacedRun) "token"
      (Address.repeated 3) 2 = none := by decide +kernel
  have kept : proposedRow (replayProjections Sdk.standard replacedLog) "token"
      (Address.repeated 3) 2 = some ⟨[], 12⟩ := by decide +kernel
  refine ⟨map_event_logOf _, replaced, kept, fun refined => ?_⟩
  have same := refined.proposals "token" (Address.repeated 3) 2
  rw [replaced, kept] at same
  exact absurd same (by simp)

end OpenSocial.Indexer

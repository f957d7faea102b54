/-
This file relates a transaction machine to a database that is folded from the
events the machine emitted.

A log of a run carries exactly the events of its accepted calls, in order; what
else a record says is left open. The first rule proves a relation between the
machine and the database after every run. The second decides along which runs a
relation holds in every state reached, when some calls change the state in ways
their events do not tell.
-/

import OpenSocial.Library.Machine

namespace Library

namespace Machine

variable {State Call Output Failure : Type} (machine : Machine State Call Output Failure)

variable {Event Record Database : Type} (events : Output → List Event)
  (event : Record → Event) (apply : Database → Record → Database)

/-- Everything a run emitted, in order. -/
def emitted (history : List machine.Accepted) : List Event :=
  history.flatMap fun entry => events entry.output

/-- A log of a run: its records carry exactly the events the run emitted, in order. -/
def Logs (history : List machine.Accepted) (records : List Record) : Prop :=
  records.map event = machine.emitted events history

/-- A relation that every accepted call and the records of its events keep relates the
machine to the database folded from any log of the run. -/
theorem projection_induction (start : State) (empty : Database)
    (related : List machine.Accepted → State → Database → Prop) (initial : related [] start empty)
    (step : ∀ history (entry : machine.Accepted) database (records : List Record),
      related history entry.before database → records.map event = events entry.output →
      related (history ++ [entry]) entry.after (records.foldl apply database))
    (calls : List Call) (records : List Record)
    (logs : machine.Logs events event (machine.history start calls) records) :
    related (machine.history start calls) (machine.final start calls)
      (records.foldl apply empty) := by
  refine machine.run_induction start
    (fun history state => ∀ records, machine.Logs events event history records →
      related history state (records.foldl apply empty)) ?_ ?_ calls records logs
  · intro records logs
    rw [Logs, emitted, List.flatMap_nil, List.map_eq_nil_iff] at logs
    rw [logs]
    exact initial
  · intro history entry inductionHypothesis records logs
    rw [Logs, emitted, List.flatMap_append, List.flatMap_singleton, List.map_eq_append_iff] at logs
    obtain ⟨old, new, records_eq, old_eq, new_eq⟩ := logs
    rw [records_eq, List.foldl_append]
    exact step history entry _ new (inductionHypothesis old old_eq) new_eq

/-- After every prefix of a run, whatever the log of it, the state and the database are
related. -/
def RelatedThroughout (start : State) (empty : Database) (related : State → Database → Prop)
    (calls : List Call) : Prop :=
  ∀ earlier, earlier <+: calls → ∀ records,
    machine.Logs events event (machine.history start earlier) records →
    related (machine.final start earlier) (records.foldl apply empty)

/-- After every prefix of a run, whatever the log of it, its history, the state and the database
are related. -/
def TrackedThroughout (start : State) (empty : Database)
    (related : List machine.Accepted → State → Database → Prop) (calls : List Call) : Prop :=
  machine.HoldsThroughout start
    (fun history state => ∀ records, machine.Logs events event history records →
      related history state (records.foldl apply empty))
    calls

section Exact

variable {machine events event apply} {start : State} {empty : Database}

theorem logs_nil {records : List Record} (logs : machine.Logs events event [] records) :
    records = [] := by
  rw [Logs, emitted, List.flatMap_nil, List.map_eq_nil_iff] at logs
  exact logs

theorem logs_concat {history : List machine.Accepted} {entry : machine.Accepted}
    {records : List Record} :
    machine.Logs events event (history ++ [entry]) records ↔
      ∃ old new, records = old ++ new ∧ machine.Logs events event history old ∧
        new.map event = events entry.output := by
  unfold Logs emitted
  rw [List.flatMap_append, List.flatMap_singleton, List.map_eq_append_iff]

/-- If faithful calls keep an invariant that relates the history, the state and the database, and
every other call breaks the relation, then the relation holds throughout a run exactly when all its
accepted calls are faithful. -/
theorem trackedThroughout_iff {related : List machine.Accepted → State → Database → Prop}
    (invariant : List machine.Accepted → State → Database → Prop)
    (faithful : machine.Accepted → Prop) (initial : invariant [] start empty)
    (implies : ∀ history state database, invariant history state database →
      related history state database)
    (keep : ∀ history (entry : machine.Accepted) database (records : List Record),
      invariant history entry.before database → records.map event = events entry.output →
      faithful entry → invariant (history ++ [entry]) entry.after (records.foldl apply database))
    (breaks : ∀ history (entry : machine.Accepted) database (records : List Record),
      invariant history entry.before database → records.map event = events entry.output →
      ¬ faithful entry → ¬ related (history ++ [entry]) entry.after (records.foldl apply database))
    (record : ∀ list : List Event, ∃ records : List Record, records.map event = list)
    (calls : List Call) :
    machine.TrackedThroughout events event apply start empty related calls ↔
      ∀ entry ∈ machine.history start calls, faithful entry := by
  refine holdsThroughout_iff
    (fun history state => ∀ records, machine.Logs events event history records →
      invariant history state (records.foldl apply empty)) faithful ?_ ?_ ?_ ?_ calls
  · intro records logs
    rw [logs_nil logs]
    exact initial
  · intro history state tracked records logs
    exact implies _ _ _ (tracked records logs)
  · intro history entry tracked faith records logs
    obtain ⟨old, new, rfl, before, carried⟩ := logs_concat.mp logs
    rw [List.foldl_append]
    exact keep history entry _ new (tracked old before) carried faith
  · intro history entry tracked lost throughout
    obtain ⟨old, before⟩ := record (machine.emitted events history)
    obtain ⟨new, carried⟩ := record (events entry.output)
    refine breaks history entry _ new (tracked old before) carried lost ?_
    have reached := throughout (old ++ new) (logs_concat.mpr ⟨old, new, rfl, before, carried⟩)
    rw [List.foldl_append] at reached
    exact reached

/-- The same for a relation of the state and the database alone. -/
theorem relatedThroughout_iff {related : State → Database → Prop}
    (invariant : State → Database → Prop) (faithful : State → Call → Prop)
    (initial : invariant start empty)
    (implies : ∀ state database, invariant state database → related state database)
    (keep : ∀ (entry : machine.Accepted) database (records : List Record),
      invariant entry.before database → records.map event = events entry.output →
      faithful entry.before entry.call → invariant entry.after (records.foldl apply database))
    (breaks : ∀ (entry : machine.Accepted) database (records : List Record),
      invariant entry.before database → records.map event = events entry.output →
      ¬ faithful entry.before entry.call → ¬ related entry.after (records.foldl apply database))
    (record : ∀ list : List Event, ∃ records : List Record, records.map event = list)
    (calls : List Call) :
    machine.RelatedThroughout events event apply start empty related calls ↔
      ∀ entry ∈ machine.history start calls, faithful entry.before entry.call :=
  trackedThroughout_iff (fun _ => invariant) (fun entry => faithful entry.before entry.call)
    initial (fun _ => implies) (fun _ => keep) (fun _ => breaks) record calls

end Exact

end Machine

end Library

/-
This file gives transaction machines: a state, and calls that either commit a
new state together with an output or fail and change nothing.

A run is a list of calls. Its history keeps only the calls that were accepted,
each with the state it found, the state it left and what it emitted, so a claim
about everything that ever happened is a claim about a list. The two run rules
reduce such a claim to one accepted call; the timed rule also lets a clock pass
between calls.
-/

import Mathlib

namespace Library

/-- A transaction machine: a failed call changes nothing and emits nothing. -/
structure Machine (State Call Output Failure : Type) where
  initial : State
  step : State → Call → Except Failure (State × Output)

namespace Machine

variable {State Call Output Failure : Type}

/-- One accepted call, with the state it found, the state it left and its output. -/
structure Accepted (machine : Machine State Call Output Failure) where
  before : State
  call : Call
  after : State
  output : Output
  accepted : machine.step before call = .ok (after, output)

variable (machine : Machine State Call Output Failure)

/-- The state after one call. -/
def next (state : State) (call : Call) : State :=
  match machine.step state call with
  | .ok (after, _) => after
  | .error _ => state

/-- The state after a list of calls. -/
def final (state : State) (calls : List Call) : State :=
  calls.foldl machine.next state

/-- The accepted calls of a run, in order. -/
def history (state : State) : List Call → List machine.Accepted
  | [] => []
  | call :: rest =>
    match answer : machine.step state call with
    | .ok (after, output) => ⟨state, call, after, output, answer⟩ :: history after rest
    | .error _ => history state rest

@[simp] theorem final_nil (state : State) : machine.final state [] = state := rfl

@[simp] theorem final_cons (state : State) (call : Call) (rest : List Call) :
    machine.final state (call :: rest) = machine.final (machine.next state call) rest := rfl

theorem final_append (state : State) (calls more : List Call) :
    machine.final state (calls ++ more) = machine.final (machine.final state calls) more :=
  List.foldl_append

@[simp] theorem history_nil (state : State) : machine.history state [] = [] := rfl

theorem next_of_ok {state after : State} {call : Call} {output : Output}
    (answer : machine.step state call = .ok (after, output)) :
    machine.next state call = after := by
  rw [next, answer]

theorem next_of_error {state : State} {call : Call} {failure : Failure}
    (answer : machine.step state call = .error failure) : machine.next state call = state := by
  rw [next, answer]

theorem history_cons_of_ok {state after : State} {call : Call} {output : Output}
    (answer : machine.step state call = .ok (after, output)) (rest : List Call) :
    machine.history state (call :: rest) =
      ⟨state, call, after, output, answer⟩ :: machine.history after rest := by
  rw [history]
  split
  · next after' output' answer' =>
    have same := Except.ok.inj (answer'.symm.trans answer)
    cases same
    rfl
  · next failure answer' => exact absurd (answer'.symm.trans answer) (by simp)

theorem history_cons_of_error {state : State} {call : Call} {failure : Failure}
    (answer : machine.step state call = .error failure) (rest : List Call) :
    machine.history state (call :: rest) = machine.history state rest := by
  rw [history]
  split
  · next after' output' answer' => exact absurd (answer'.symm.trans answer) (by simp)
  · rfl

theorem history_append (state : State) (calls more : List Call) :
    machine.history state (calls ++ more) =
      machine.history state calls ++ machine.history (machine.final state calls) more := by
  induction calls generalizing state with
  | nil => rfl
  | cons call rest inductionHypothesis =>
    rw [List.cons_append, final_cons]
    cases answer : machine.step state call with
    | ok committed =>
      obtain ⟨after, output⟩ := committed
      rw [machine.history_cons_of_ok answer, machine.history_cons_of_ok answer,
        machine.next_of_ok answer, inductionHypothesis, List.cons_append]
    | error failure =>
      rw [machine.history_cons_of_error answer, machine.history_cons_of_error answer,
        machine.next_of_error answer, inductionHypothesis]

/-- A run accepts no more calls than it makes. -/
theorem length_history_le (state : State) (calls : List Call) :
    (machine.history state calls).length ≤ calls.length := by
  induction calls generalizing state with
  | nil => exact le_refl 0
  | cons call rest inductionHypothesis =>
    cases answer : machine.step state call with
    | ok committed =>
      obtain ⟨after, output⟩ := committed
      rw [machine.history_cons_of_ok answer, List.length_cons, List.length_cons]
      exact Nat.succ_le_succ (inductionHypothesis after)
    | error failure =>
      rw [machine.history_cons_of_error answer, List.length_cons]
      exact Nat.le_succ_of_le (inductionHypothesis state)

/-- A last call that is accepted adds one entry to the history. -/
theorem history_concat_of_ok {state after : State} {calls : List Call} {call : Call}
    {output : Output} (answer : machine.step (machine.final state calls) call = .ok (after, output)) :
    machine.history state (calls ++ [call]) =
      machine.history state calls ++
        [⟨machine.final state calls, call, after, output, answer⟩] := by
  rw [history_append, machine.history_cons_of_ok answer, history_nil]

theorem history_concat_of_error {state : State} {calls : List Call} {call : Call}
    {failure : Failure} (answer : machine.step (machine.final state calls) call = .error failure) :
    machine.history state (calls ++ [call]) = machine.history state calls := by
  rw [history_append, machine.history_cons_of_error answer, history_nil, List.append_nil]

theorem final_concat_of_ok {state after : State} {calls : List Call} {call : Call}
    {output : Output} (answer : machine.step (machine.final state calls) call = .ok (after, output)) :
    machine.final state (calls ++ [call]) = after := by
  rw [final_append, final_cons, machine.next_of_ok answer, final_nil]

theorem final_concat_of_error {state : State} {calls : List Call} {call : Call}
    {failure : Failure} (answer : machine.step (machine.final state calls) call = .error failure) :
    machine.final state (calls ++ [call]) = machine.final state calls := by
  rw [final_append, final_cons, machine.next_of_error answer, final_nil]

/-- Every accepted call of a run was made in the state some prefix of the run reached. -/
theorem history_split {state : State} {calls : List Call} {earlier later : List machine.Accepted}
    {entry : machine.Accepted} (split : machine.history state calls = earlier ++ entry :: later) :
    ∃ before after, calls = before ++ entry.call :: after ∧
      machine.history state before = earlier ∧ machine.final state before = entry.before := by
  induction calls generalizing state earlier with
  | nil => simp at split
  | cons call rest inductionHypothesis =>
    cases answer : machine.step state call with
    | ok committed =>
      obtain ⟨after, output⟩ := committed
      rw [machine.history_cons_of_ok answer] at split
      cases earlier with
      | nil =>
        rw [List.nil_append, List.cons.injEq] at split
        refine ⟨[], rest, ?_, rfl, ?_⟩
        · rw [← split.1, List.nil_append]
        · rw [← split.1, final_nil]
      | cons head earlier =>
        rw [List.cons_append, List.cons.injEq] at split
        obtain ⟨prior, post, calls_eq, history_eq, final_eq⟩ := inductionHypothesis split.2
        refine ⟨call :: prior, post, ?_, ?_, ?_⟩
        · rw [calls_eq, List.cons_append]
        · rw [machine.history_cons_of_ok answer, history_eq, split.1]
        · rw [final_cons, machine.next_of_ok answer, final_eq]
    | error failure =>
      rw [machine.history_cons_of_error answer] at split
      obtain ⟨prior, post, calls_eq, history_eq, final_eq⟩ := inductionHypothesis split
      refine ⟨call :: prior, post, ?_, ?_, ?_⟩
      · rw [calls_eq, List.cons_append]
      · rw [machine.history_cons_of_error answer, history_eq]
      · rw [final_cons, machine.next_of_error answer, final_eq]

/-! ### Selecting from a history -/

/-- What a list selects from its entries gains at most one value with one more entry. -/
theorem filterMap_concat {Entry Value : Type} (select : Entry → Option Value)
    (entries : List Entry) (entry : Entry) :
    (entries ++ [entry]).filterMap select = entries.filterMap select ++ (select entry).toList := by
  rw [List.filterMap_append, List.filterMap_cons, List.filterMap_nil]
  cases select entry with
  | none => rfl
  | some value => rfl

/-! ### What happened last -/

section Since

variable {Entry : Type} (starts stops : Entry → Bool)

/-- Something that starts a period happened, and nothing that stops one happened after it. -/
def since (history : List Entry) : Bool :=
  history.foldl (fun running entry => if stops entry then false else running || starts entry) false

theorem since_concat (history : List Entry) (entry : Entry) :
    since starts stops (history ++ [entry]) =
      if stops entry then false else since starts stops history || starts entry := by
  rw [since, List.foldl_append, List.foldl_cons, List.foldl_nil, ← since]

end Since

/-! ### Run rules -/

/-- What holds at the start and is kept by every accepted call holds after every run. -/
theorem run_induction (start : State) (motive : List machine.Accepted → State → Prop)
    (initial : motive [] start)
    (step : ∀ history (entry : machine.Accepted), motive history entry.before →
      motive (history ++ [entry]) entry.after)
    (calls : List Call) : motive (machine.history start calls) (machine.final start calls) := by
  induction calls using List.reverseRecOn with
  | nil => exact initial
  | append_singleton calls call inductionHypothesis =>
    cases answer : machine.step (machine.final start calls) call with
    | ok committed =>
      obtain ⟨after, output⟩ := committed
      rw [machine.history_concat_of_ok answer, machine.final_concat_of_ok answer]
      exact step _ ⟨_, call, after, output, answer⟩ inductionHypothesis
    | error failure =>
      rw [machine.history_concat_of_error answer, machine.final_concat_of_error answer]
      exact inductionHypothesis

/-- A state invariant that every accepted call keeps holds after every run. -/
theorem invariant_final (start : State) (invariant : State → Prop) (initial : invariant start)
    (step : ∀ entry : machine.Accepted, invariant entry.before → invariant entry.after)
    (calls : List Call) : invariant (machine.final start calls) :=
  machine.run_induction start (fun _ state => invariant state) initial
    (fun _ entry holds => step entry holds) calls

/-- What an accepted call established and every accepted call keeps holds at the end of the run. -/
theorem invariant_since {start : State} {calls : List Call} {earlier later : List machine.Accepted}
    {entry : machine.Accepted} (split : machine.history start calls = earlier ++ entry :: later)
    (invariant : State → Prop) (established : invariant entry.after)
    (step : ∀ other : machine.Accepted, invariant other.before → invariant other.after) :
    invariant (machine.final start calls) := by
  obtain ⟨prior, post, calls_eq, _, final_eq⟩ := machine.history_split split
  rw [calls_eq, final_append, final_cons, final_eq, machine.next_of_ok entry.accepted]
  exact machine.invariant_final entry.after invariant established step post

/-- Calls whose answers show the same view leave the same view. -/
theorem view_next_congr {View : Type} {view : State → View} {first second : State} {call : Call}
    (answers : (machine.step first call).map (fun committed => view committed.1) =
      (machine.step second call).map fun committed => view committed.1)
    (same : view first = view second) :
    view (machine.next first call) = view (machine.next second call) := by
  unfold next
  cases early : machine.step first call with
  | ok committed =>
    cases late : machine.step second call with
    | ok other =>
      rw [early, late] at answers
      exact Except.ok.inj answers
    | error failure =>
      rw [early, late] at answers
      cases answers
  | error failure =>
    cases late : machine.step second call with
    | ok other =>
      rw [early, late] at answers
      cases answers
    | error failure => exact same

/-- A view of the state that some calls leave as it is, and that the others change in a way it tells
by itself, is the same after the others alone. -/
theorem view_final_filter {View : Type} (view : State → View) (concerns : Call → Bool)
    (leaves : ∀ state call, concerns call = false → view (machine.next state call) = view state)
    (alone : ∀ first second call, concerns call = true → view first = view second →
      view (machine.next first call) = view (machine.next second call))
    (start : State) (calls : List Call) :
    view (machine.final start calls) = view (machine.final start (calls.filter concerns)) := by
  induction calls using List.reverseRecOn with
  | nil => rfl
  | append_singleton calls call inductionHypothesis =>
    rw [final_append, final_cons, final_nil, List.filter_append]
    cases concerned : concerns call with
    | false =>
      rw [List.filter_cons_of_neg (by rw [concerned]; exact Bool.false_ne_true), List.filter_nil,
        List.append_nil, leaves _ _ concerned, inductionHypothesis]
    | true =>
      rw [List.filter_cons_of_pos concerned, List.filter_nil, final_append, final_cons, final_nil]
      exact alone _ _ call concerned inductionHypothesis

/-- A state some run from the start of the machine reaches. -/
def Reachable (state : State) : Prop :=
  ∃ calls, machine.final machine.initial calls = state

theorem reachable_initial : machine.Reachable machine.initial :=
  ⟨[], rfl⟩

theorem reachable_step {state after : State} {call : Call} {output : Output}
    (reached : machine.Reachable state) (answer : machine.step state call = .ok (after, output)) :
    machine.Reachable after := by
  obtain ⟨calls, rfl⟩ := reached
  exact ⟨calls ++ [call], machine.final_concat_of_ok answer⟩

/-- After every prefix of a run something holds. -/
def HoldsThroughout (start : State) (holds : List machine.Accepted → State → Prop)
    (calls : List Call) : Prop :=
  ∀ earlier, earlier <+: calls → holds (machine.history start earlier) (machine.final start earlier)

section Faithful

variable {machine} {start : State} {holds : List machine.Accepted → State → Prop}
  (invariant : List machine.Accepted → State → Prop) (faithful : machine.Accepted → Prop)

/-- What faithful calls keep holds after every run of faithful calls. -/
theorem invariant_of_faithful (initial : invariant [] start)
    (keep : ∀ history (entry : machine.Accepted), invariant history entry.before →
      faithful entry → invariant (history ++ [entry]) entry.after)
    (calls : List Call) (every : ∀ entry ∈ machine.history start calls, faithful entry) :
    invariant (machine.history start calls) (machine.final start calls) := by
  refine machine.run_induction start
    (fun history state => (∀ entry ∈ history, faithful entry) → invariant history state)
    (fun _ => initial) ?_ calls every
  intro history entry inductionHypothesis every
  refine keep history entry (inductionHypothesis fun earlier member => ?_) ?_
  · exact every earlier (List.mem_append_left _ member)
  · exact every entry (List.mem_append_right _ List.mem_cons_self)

/-- If faithful calls keep an invariant that implies something, and every other call breaks it, then
it holds throughout a run exactly when all its accepted calls are faithful. -/
theorem holdsThroughout_iff (initial : invariant [] start)
    (implies : ∀ history state, invariant history state → holds history state)
    (keep : ∀ history (entry : machine.Accepted), invariant history entry.before →
      faithful entry → invariant (history ++ [entry]) entry.after)
    (breaks : ∀ history (entry : machine.Accepted), invariant history entry.before →
      ¬ faithful entry → ¬ holds (history ++ [entry]) entry.after)
    (calls : List Call) :
    machine.HoldsThroughout start holds calls ↔
      ∀ entry ∈ machine.history start calls, faithful entry := by
  constructor
  · intro throughout
    induction calls using List.reverseRecOn with
    | nil => exact fun entry member => absurd member List.not_mem_nil
    | append_singleton calls call inductionHypothesis =>
      have every := inductionHypothesis fun earlier beginning =>
        throughout earlier (beginning.trans (List.prefix_append calls [call]))
      cases answer : machine.step (machine.final start calls) call with
      | error failure =>
        rw [machine.history_concat_of_error answer]
        exact every
      | ok committed =>
        obtain ⟨after, output⟩ := committed
        have reached := throughout (calls ++ [call]) (List.prefix_refl _)
        rw [machine.history_concat_of_ok answer, machine.final_concat_of_ok answer] at reached
        rw [machine.history_concat_of_ok answer]
        intro entry member
        rcases List.mem_append.mp member with old | last
        · exact every entry old
        · rw [List.mem_singleton] at last
          have kept := invariant_of_faithful invariant faithful initial keep calls every
          by_contra lost
          rw [last] at lost
          exact breaks _ _ kept lost reached
  · intro every earlier beginning
    refine implies _ _ (invariant_of_faithful invariant faithful initial keep earlier
      fun entry member => ?_)
    obtain ⟨later, calls_eq⟩ := beginning
    rw [← calls_eq, machine.history_append] at every
    exact every entry (List.mem_append_left _ member)

end Faithful

/-- Calls whose times never go back, none of them before the clock. -/
def Chronological (time : Call → ℕ) (clock : ℕ) (calls : List Call) : Prop :=
  calls.Pairwise (fun earlier later => time earlier ≤ time later) ∧
    ∀ call ∈ calls, clock ≤ time call

theorem chronological_append {time : Call → ℕ} {clock : ℕ} {calls more : List Call}
    (chronological : Chronological time clock (calls ++ more)) :
    Chronological time clock calls := by
  refine ⟨(List.pairwise_append.mp chronological.1).1, fun call member => ?_⟩
  exact chronological.2 call (List.mem_append_left more member)

/-- The run rule with a clock: the motive survives waiting, and an accepted call at the
current time keeps it. -/
theorem timed_induction (time : Call → ℕ) (start : State) (clock : ℕ)
    (motive : ℕ → List machine.Accepted → State → Prop) (initial : motive clock [] start)
    (wait : ∀ earlier later history state, earlier ≤ later →
      motive earlier history state → motive later history state)
    (calls : List Call)
    (step : ∀ history (entry : machine.Accepted), entry.call ∈ calls →
      motive (time entry.call) history entry.before →
      motive (time entry.call) (history ++ [entry]) entry.after)
    (chronological : Chronological time clock calls) (now : ℕ) (started : clock ≤ now)
    (passed : ∀ call ∈ calls, time call ≤ now) :
    motive now (machine.history start calls) (machine.final start calls) := by
  induction calls using List.reverseRecOn generalizing now with
  | nil => exact wait clock now [] start started initial
  | append_singleton calls call inductionHypothesis =>
    have last : call ∈ calls ++ [call] := List.mem_append_right calls List.mem_cons_self
    have before : ∀ earlier ∈ calls, time earlier ≤ time call := fun earlier member =>
      (List.pairwise_append.mp chronological.1).2.2 earlier member call List.mem_cons_self
    have reached : motive (time call) (machine.history start calls) (machine.final start calls) :=
      inductionHypothesis
        (fun history entry member => step history entry (List.mem_append_left _ member))
        (chronological_append chronological) (time call) (chronological.2 call last) before
    refine wait (time call) now _ _ (passed call last) ?_
    cases answer : machine.step (machine.final start calls) call with
    | ok committed =>
      obtain ⟨after, output⟩ := committed
      rw [machine.history_concat_of_ok answer, machine.final_concat_of_ok answer]
      exact step _ ⟨_, call, after, output, answer⟩ last reached
    | error failure =>
      rw [machine.history_concat_of_error answer, machine.final_concat_of_error answer]
      exact reached

/-- The timed rule read at an accepted call: the motive holds of everything before it. -/
theorem timed_before (time : Call → ℕ) (start : State) (clock : ℕ)
    (motive : ℕ → List machine.Accepted → State → Prop) (initial : motive clock [] start)
    (wait : ∀ earlier later history state, earlier ≤ later →
      motive earlier history state → motive later history state)
    (calls : List Call)
    (step : ∀ history (entry : machine.Accepted), entry.call ∈ calls →
      motive (time entry.call) history entry.before →
      motive (time entry.call) (history ++ [entry]) entry.after)
    (chronological : Chronological time clock calls)
    {earlier later : List machine.Accepted} {entry : machine.Accepted}
    (split : machine.history start calls = earlier ++ entry :: later) :
    motive (time entry.call) earlier entry.before := by
  obtain ⟨prior, post, calls_eq, history_eq, final_eq⟩ := machine.history_split split
  subst calls_eq
  have member : entry.call ∈ prior ++ entry.call :: post :=
    List.mem_append_right prior List.mem_cons_self
  have ordered := List.pairwise_append.mp chronological.1
  rw [← history_eq, ← final_eq]
  refine machine.timed_induction time start clock motive initial wait prior
    (fun history entry member => step history entry (List.mem_append_left _ member))
    (chronological_append chronological) _ (chronological.2 _ member) fun call earlier => ?_
  exact ordered.2.2 call earlier _ List.mem_cons_self

/-! ### Windows of a chronological run -/

section Window

theorem mem_history_call {state : State} {calls : List Call} {entry : machine.Accepted}
    (member : entry ∈ machine.history state calls) : entry.call ∈ calls := by
  obtain ⟨earlier, later, split⟩ := List.append_of_mem member
  obtain ⟨prior, post, calls_eq, _, _⟩ := machine.history_split split
  rw [calls_eq]
  exact List.mem_append_right prior List.mem_cons_self

variable (time : Call → ℕ) (start stop : ℕ)

/-- The calls before a window. -/
def before (calls : List Call) : List Call :=
  calls.filter fun call => time call < start

theorem early_of_before (calls : List Call) : ∀ call ∈ before time start calls, time call ≤ start := by
  intro call member
  have early := (List.mem_filter.mp member).2
  simp only [decide_eq_true_eq] at early
  exact early.le

/-- The calls inside a window, both ends included. -/
def during (calls : List Call) : List Call :=
  calls.filter fun call => start ≤ time call ∧ time call ≤ stop

/-- The calls after a window. -/
def beyond (calls : List Call) : List Call :=
  calls.filter fun call => stop < time call

/-- A window cuts a chronological run into three consecutive parts. -/
theorem window_split {calls : List Call} {clock : ℕ} (chronological : Chronological time clock calls)
    (ordered : start ≤ stop) :
    calls = before time start calls ++ during time start stop calls ++ beyond time stop calls := by
  induction calls with
  | nil => rfl
  | cons call rest inductionHypothesis =>
    have later : ∀ other ∈ rest, time call ≤ time other :=
      (List.pairwise_cons.mp chronological.1).1
    have tail := inductionHypothesis ⟨(List.pairwise_cons.mp chronological.1).2,
      fun other member => chronological.2 other (List.mem_cons_of_mem call member)⟩
    have noneBefore : start ≤ time call → before time start rest = [] := by
      intro entered
      refine List.filter_eq_nil_iff.mpr fun other member => ?_
      have := later other member
      simp only [decide_eq_true_eq]
      omega
    have noneDuring : stop < time call → during time start stop rest = [] := by
      intro passed
      refine List.filter_eq_nil_iff.mpr fun other member => ?_
      have := later other member
      simp only [decide_eq_true_eq]
      omega
    rcases Nat.lt_or_ge (time call) start with early | entered
    · have first : before time start (call :: rest) = call :: before time start rest :=
        List.filter_cons_of_pos (by simpa using early)
      have second : during time start stop (call :: rest) = during time start stop rest :=
        List.filter_cons_of_neg (by simp only [decide_eq_true_eq]; omega)
      have third : beyond time stop (call :: rest) = beyond time stop rest :=
        List.filter_cons_of_neg (by simp only [decide_eq_true_eq]; omega)
      rw [first, second, third, List.cons_append, List.cons_append, ← tail]
    · have first : before time start (call :: rest) = before time start rest :=
        List.filter_cons_of_neg (by simp only [decide_eq_true_eq]; omega)
      rw [noneBefore entered] at tail
      rw [first, noneBefore entered, List.nil_append]
      rw [List.nil_append] at tail
      rcases Nat.lt_or_ge stop (time call) with passed | inside
      · have second : during time start stop (call :: rest) = during time start stop rest :=
          List.filter_cons_of_neg (by simp only [decide_eq_true_eq]; omega)
        have third : beyond time stop (call :: rest) = call :: beyond time stop rest :=
          List.filter_cons_of_pos (by simpa using passed)
        rw [noneDuring passed, List.nil_append] at tail
        rw [second, third, noneDuring passed, List.nil_append, ← tail]
      · have second : during time start stop (call :: rest) =
            call :: during time start stop rest :=
          List.filter_cons_of_pos (by simpa using ⟨entered, inside⟩)
        have third : beyond time stop (call :: rest) = beyond time stop rest :=
          List.filter_cons_of_neg (by simp only [decide_eq_true_eq]; omega)
        rw [second, third, List.cons_append, ← tail]

/-- The accepted calls inside a window are the history of the window's calls from the state
the run had when the window opened. -/
theorem history_window {calls : List Call} {clock : ℕ}
    (chronological : Chronological time clock calls) (ordered : start ≤ stop) (state : State) :
    (machine.history state calls).filter
        (fun entry => start ≤ time entry.call ∧ time entry.call ≤ stop) =
      machine.history (machine.final state (before time start calls))
        (during time start stop calls) := by
  conv_lhs => rw [window_split time start stop chronological ordered]
  rw [history_append, history_append, List.filter_append, List.filter_append]
  have first : (machine.history state (before time start calls)).filter
      (fun entry => start ≤ time entry.call ∧ time entry.call ≤ stop) = [] := by
    refine List.filter_eq_nil_iff.mpr fun entry member => ?_
    have early := (List.mem_filter.mp (machine.mem_history_call member)).2
    simp only [decide_eq_true_eq] at early ⊢
    omega
  have last : (machine.history (machine.final state
      (before time start calls ++ during time start stop calls)) (beyond time stop calls)).filter
      (fun entry => start ≤ time entry.call ∧ time entry.call ≤ stop) = [] := by
    refine List.filter_eq_nil_iff.mpr fun entry member => ?_
    have late := (List.mem_filter.mp (machine.mem_history_call member)).2
    simp only [decide_eq_true_eq] at late ⊢
    omega
  have middle : (machine.history (machine.final state (before time start calls))
      (during time start stop calls)).filter
      (fun entry => start ≤ time entry.call ∧ time entry.call ≤ stop) =
      machine.history (machine.final state (before time start calls))
        (during time start stop calls) := by
    refine List.filter_eq_self.mpr fun entry member => ?_
    exact (List.mem_filter.mp (machine.mem_history_call member)).2
  rw [first, middle, last, List.nil_append, List.append_nil]

theorem chronological_before {calls : List Call} {clock : ℕ}
    (chronological : Chronological time clock calls) :
    Chronological time clock (before time start calls) :=
  ⟨chronological.1.filter _, fun call member => chronological.2 call (List.mem_of_mem_filter member)⟩

theorem chronological_during {calls : List Call} {clock : ℕ}
    (chronological : Chronological time clock calls) :
    Chronological time start (during time start stop calls) :=
  ⟨chronological.1.filter _, fun call member => by
    have inside := (List.mem_filter.mp member).2
    simp only [decide_eq_true_eq] at inside
    exact inside.1⟩

end Window

end Machine

/-! ### Two machines side by side -/

section Interleave

variable {First Second FirstCall SecondCall FirstOutput SecondOutput Failure : Type}

/-- Two machines that take turns in any order; each call reaches one of them. -/
def interleave (first : Machine First FirstCall FirstOutput Failure)
    (second : Machine Second SecondCall SecondOutput Failure) :
    Machine (First × Second) (FirstCall ⊕ SecondCall) (FirstOutput ⊕ SecondOutput) Failure where
  initial := (first.initial, second.initial)
  step state
    | .inl call => (first.step state.1 call).map fun (after, output) =>
        ((after, state.2), .inl output)
    | .inr call => (second.step state.2 call).map fun (after, output) =>
        ((state.1, after), .inr output)

variable {first : Machine First FirstCall FirstOutput Failure}
  {second : Machine Second SecondCall SecondOutput Failure}

/-- An accepted call of two machines is an accepted call of one of them, and the other one
stays as it is. -/
theorem interleave_accepted (entry : (interleave first second).Accepted) :
    (∃ own : first.Accepted, own.before = entry.before.1 ∧ entry.call = .inl own.call ∧
        entry.after = (own.after, entry.before.2) ∧ entry.output = .inl own.output) ∨
      ∃ own : second.Accepted, own.before = entry.before.2 ∧ entry.call = .inr own.call ∧
        entry.after = (entry.before.1, own.after) ∧ entry.output = .inr own.output := by
  obtain ⟨before, call, after, output, accepted⟩ := entry
  cases call with
  | inl call =>
    cases answer : first.step before.1 call with
    | error failure =>
      simp only [interleave, answer, Except.map] at accepted
      cases accepted
    | ok committed =>
      simp only [interleave, answer, Except.map, Except.ok.injEq, Prod.mk.injEq] at accepted
      obtain ⟨rfl, rfl⟩ := accepted
      exact .inl ⟨⟨before.1, call, committed.1, committed.2, answer⟩, rfl, rfl, rfl, rfl⟩
  | inr call =>
    cases answer : second.step before.2 call with
    | error failure =>
      simp only [interleave, answer, Except.map] at accepted
      cases accepted
    | ok committed =>
      simp only [interleave, answer, Except.map, Except.ok.injEq, Prod.mk.injEq] at accepted
      obtain ⟨rfl, rfl⟩ := accepted
      exact .inr ⟨⟨before.2, call, committed.1, committed.2, answer⟩, rfl, rfl, rfl, rfl⟩

end Interleave

end Library

/-
This file gives programs that work by asking: they put requests to an
environment, one after the other, and end with a value or a failure.

A program is a tree with one branch for every answer, so nothing is assumed of
the environment: whatever it answers, and however an answer depends on what was
asked before, some run of the tree follows it. A run records every request with
its answer. The rules below split a run at a sequencing, at a caught failure and
at a request, so a property of all runs is proved along the program text.
-/

import Mathlib

namespace Library

/-- A program that asks requests, each with its own type of answers. -/
inductive Program (Request : Type) (Answer : Request → Type) (Failure Value : Type) : Type where
  | done (value : Value)
  | fail (failure : Failure)
  | ask (request : Request) (rest : Answer request → Program Request Answer Failure Value)

namespace Program

variable {Request : Type} {Answer : Request → Type} {Failure Other Value Result : Type}

/-- Sequencing; a failure ends the program. -/
def bind : Program Request Answer Failure Value →
    (Value → Program Request Answer Failure Result) → Program Request Answer Failure Result
  | .done value, next => next value
  | .fail failure, _ => .fail failure
  | .ask request rest, next => .ask request fun answer => bind (rest answer) next

instance : Monad (Program Request Answer Failure) where
  pure := .done
  bind := bind

/-- Run a program and answer how it ended instead of failing. -/
def attempt : Program Request Answer Failure Value →
    Program Request Answer Other (Except Failure Value)
  | .done value => .done (.ok value)
  | .fail failure => .done (.error failure)
  | .ask request rest => .ask request fun answer => attempt (rest answer)

/-- A computation that asks nothing. -/
def lift : Except Failure Value → Program Request Answer Failure Value
  | .ok value => .done value
  | .error failure => .fail failure

/-- Ask one request and make a value, or a failure, of its answer. -/
def query (request : Request) (read : Answer request → Except Failure Value) :
    Program Request Answer Failure Value :=
  .ask request fun answer => lift (read answer)

/-- A program whose requests are some of those of a wider kind. -/
def within {Wider : Type} {WiderAnswer : Wider → Type} (into : Request → Wider) :
    Program Request (fun request => WiderAnswer (into request)) Failure Value →
      Program Wider WiderAnswer Failure Value
  | .done value => .done value
  | .fail failure => .fail failure
  | .ask request rest => .ask (into request) fun answer => within into (rest answer)

/-! ### Runs -/

/-- A request with the answer it got. -/
abbrev Exchange (Request : Type) (Answer : Request → Type) :=
  Sigma fun request : Request => Answer request

/-- The exchanges of a run, in order, and how the run ended. -/
inductive Runs : Program Request Answer Failure Value → List (Exchange Request Answer) →
    Except Failure Value → Prop where
  | done (value : Value) : Runs (.done value) [] (.ok value)
  | fail (failure : Failure) : Runs (.fail failure) [] (.error failure)
  | ask (request : Request) {rest : Answer request → Program Request Answer Failure Value}
      (answer : Answer request) {trace : List (Exchange Request Answer)}
      {result : Except Failure Value} (runs : Runs (rest answer) trace result) :
      Runs (.ask request rest) (⟨request, answer⟩ :: trace) result

/-- The run against an environment that may answer by everything exchanged so far. -/
def exec (respond : List (Exchange Request Answer) → (request : Request) → Answer request) :
    List (Exchange Request Answer) → Program Request Answer Failure Value →
      List (Exchange Request Answer) × Except Failure Value
  | _, .done value => ([], .ok value)
  | _, .fail failure => ([], .error failure)
  | past, .ask request rest =>
    let exchange : Exchange Request Answer := ⟨request, respond past request⟩
    let (trace, result) := exec respond (past ++ [exchange]) (rest (respond past request))
    (exchange :: trace, result)

/-- Every environment drives every program to an end. -/
theorem runs_exec
    (respond : List (Exchange Request Answer) → (request : Request) → Answer request)
    (past : List (Exchange Request Answer)) (program : Program Request Answer Failure Value) :
    Runs program (exec respond past program).1 (exec respond past program).2 := by
  induction program generalizing past with
  | done value => exact .done value
  | fail failure => exact .fail failure
  | ask request rest inductionHypothesis =>
    exact .ask request _ (inductionHypothesis _ _)

section Splitting

variable {trace : List (Exchange Request Answer)}

@[simp] theorem runs_done {value : Value} {result : Except Failure Value} :
    Runs (.done value : Program Request Answer Failure Value) trace result ↔
      trace = [] ∧ result = .ok value := by
  constructor
  · intro runs
    cases runs
    exact ⟨rfl, rfl⟩
  · rintro ⟨rfl, rfl⟩
    exact .done value

@[simp] theorem runs_pure {value : Value} {result : Except Failure Value} :
    Runs (pure value : Program Request Answer Failure Value) trace result ↔
      trace = [] ∧ result = .ok value :=
  runs_done

@[simp] theorem runs_fail {failure : Failure} {result : Except Failure Value} :
    Runs (.fail failure : Program Request Answer Failure Value) trace result ↔
      trace = [] ∧ result = .error failure := by
  constructor
  · intro runs
    cases runs
    exact ⟨rfl, rfl⟩
  · rintro ⟨rfl, rfl⟩
    exact .fail failure

@[simp] theorem runs_lift {computation result : Except Failure Value} :
    Runs (lift computation : Program Request Answer Failure Value) trace result ↔
      trace = [] ∧ result = computation := by
  cases computation with
  | ok value => exact runs_done
  | error failure => exact runs_fail

/-- What starts with a computation asks what follows its answer. -/
theorem lift_bind_eq_ask {computation : Except Failure Value}
    {next : Value → Program Request Answer Failure Result} {request : Request}
    {rest : Answer request → Program Request Answer Failure Result}
    (asks : lift computation >>= next = .ask request rest) :
    ∃ value, computation = .ok value ∧ next value = .ask request rest := by
  cases computation with
  | ok value => exact ⟨value, rfl, asks⟩
  | error failure => cases asks

@[simp] theorem runs_query {request : Request} {read : Answer request → Except Failure Value}
    {result : Except Failure Value} :
    Runs (query request read) trace result ↔
      ∃ answer, trace = [⟨request, answer⟩] ∧ result = read answer := by
  constructor
  · intro runs
    cases runs with
    | ask _ answer rest =>
      obtain ⟨rfl, rfl⟩ := runs_lift.mp rest
      exact ⟨answer, rfl, rfl⟩
  · rintro ⟨answer, rfl, rfl⟩
    exact .ask request answer (runs_lift.mpr ⟨rfl, rfl⟩)

/-- A run of a sequence ends with its first part's failure, or goes on with its value. -/
theorem runs_bind {program : Program Request Answer Failure Value}
    {next : Value → Program Request Answer Failure Result} {result : Except Failure Result} :
    Runs (program >>= next) trace result ↔
      (∃ failure, Runs program trace (.error failure) ∧ result = .error failure) ∨
      ∃ first last value, trace = first ++ last ∧ Runs program first (.ok value) ∧
        Runs (next value) last result := by
  induction program generalizing trace with
  | done value =>
    constructor
    · intro runs
      exact .inr ⟨[], trace, value, rfl, .done value, runs⟩
    · rintro (⟨failure, runs, _⟩ | ⟨first, last, other, rfl, runs, rest⟩)
      · cases runs
      · cases runs
        exact rest
  | fail failure =>
    constructor
    · intro runs
      obtain ⟨rfl, rfl⟩ := runs_fail.mp runs
      exact .inl ⟨failure, .fail failure, rfl⟩
    · rintro (⟨other, runs, rfl⟩ | ⟨first, last, value, rfl, runs, rest⟩)
      · cases runs
        exact .fail failure
      · cases runs
  | ask request rest inductionHypothesis =>
    constructor
    · intro runs
      cases runs with
      | ask _ answer whole =>
        rcases (inductionHypothesis answer).mp whole with
          ⟨failure, failing, rfl⟩ | ⟨first, last, value, rfl, runs, later⟩
        · exact .inl ⟨failure, .ask request answer failing, rfl⟩
        · exact .inr ⟨_ :: first, last, value, rfl, .ask request answer runs, later⟩
    · rintro (⟨failure, runs, rfl⟩ | ⟨first, last, value, rfl, runs, later⟩)
      · cases runs with
        | ask _ answer runs =>
          exact .ask request answer ((inductionHypothesis answer).mpr (.inl ⟨failure, runs, rfl⟩))
      · cases runs with
        | ask _ answer runs =>
          exact .ask request answer
            ((inductionHypothesis answer).mpr (.inr ⟨_, last, value, rfl, runs, later⟩))

/-- Catching changes how a run ends, not what it exchanges. -/
@[simp] theorem runs_attempt {program : Program Request Answer Failure Value}
    {result : Except Other (Except Failure Value)} :
    Runs (attempt program) trace result ↔ ∃ ending, Runs program trace ending ∧
      result = .ok ending := by
  induction program generalizing trace with
  | done value =>
    constructor
    · intro runs
      obtain ⟨rfl, rfl⟩ := runs_done.mp runs
      exact ⟨Except.ok value, .done value, rfl⟩
    · rintro ⟨ending, runs, rfl⟩
      cases runs
      exact .done (Except.ok value)
  | fail failure =>
    constructor
    · intro runs
      obtain ⟨rfl, rfl⟩ := runs_done.mp runs
      exact ⟨Except.error failure, .fail failure, rfl⟩
    · rintro ⟨ending, runs, rfl⟩
      cases runs
      exact .done (Except.error failure)
  | ask request rest inductionHypothesis =>
    constructor
    · intro runs
      cases runs with
      | ask _ answer whole =>
        obtain ⟨ending, runs, rfl⟩ := (inductionHypothesis answer).mp whole
        exact ⟨ending, .ask request answer runs, rfl⟩
    · rintro ⟨ending, runs, rfl⟩
      cases runs with
      | ask _ answer runs =>
        exact .ask request answer ((inductionHypothesis answer).mpr ⟨ending, runs, rfl⟩)

end Splitting

/-! ### Properties of all runs -/

/-- Every run of the program satisfies `post`. -/
def Ensures (program : Program Request Answer Failure Value)
    (post : List (Exchange Request Answer) → Except Failure Value → Prop) : Prop :=
  ∀ trace result, Runs program trace result → post trace result

namespace Ensures

variable {post : List (Exchange Request Answer) → Except Failure Value → Prop}

theorem lift {computation : Except Failure Value} (holds : post [] computation) :
    Ensures (Program.lift computation : Program Request Answer Failure Value) post := by
  intro trace result runs
  obtain ⟨rfl, rfl⟩ := runs_lift.mp runs
  exact holds

theorem done {value : Value} (holds : post [] (.ok value)) :
    Ensures (Program.done value : Program Request Answer Failure Value) post := by
  intro trace result runs
  obtain ⟨rfl, rfl⟩ := runs_done.mp runs
  exact holds

theorem fail {failure : Failure} (holds : post [] (.error failure)) :
    Ensures (Program.fail failure : Program Request Answer Failure Value) post := by
  intro trace result runs
  obtain ⟨rfl, rfl⟩ := runs_fail.mp runs
  exact holds

theorem query {request : Request} {read : Answer request → Except Failure Value}
    (holds : ∀ answer, post [⟨request, answer⟩] (read answer)) :
    Ensures (Program.query request read) post := by
  intro trace result runs
  obtain ⟨answer, rfl, rfl⟩ := runs_query.mp runs
  exact holds answer

/-- Sequencing: what the first part ensures is used at its failures and at its values. -/
theorem seq {program : Program Request Answer Failure Value}
    {next : Value → Program Request Answer Failure Result}
    {middle : List (Exchange Request Answer) → Except Failure Value → Prop}
    {post : List (Exchange Request Answer) → Except Failure Result → Prop}
    (before : Ensures program middle)
    (failed : ∀ trace failure, middle trace (.error failure) → post trace (.error failure))
    (after : ∀ first value, middle first (.ok value) →
      Ensures (next value) fun last result => post (first ++ last) result) :
    Ensures (program >>= next) post := by
  intro trace result whole
  rcases runs_bind.mp whole with ⟨failure, failing, rfl⟩ | ⟨first, last, value, rfl, runs, rest⟩
  · exact failed trace failure (before _ _ failing)
  · exact after first value (before _ _ runs) last result rest

/-- A computation that asks nothing, first in a sequence. -/
theorem lift_seq {computation : Except Failure Value}
    {next : Value → Program Request Answer Failure Result}
    {post : List (Exchange Request Answer) → Except Failure Result → Prop}
    (failed : ∀ failure, computation = .error failure → post [] (.error failure))
    (after : ∀ value, computation = .ok value → Ensures (next value) post) :
    Ensures (Program.lift computation >>= next) post := by
  cases computation with
  | ok value => exact after value rfl
  | error failure => exact fail (failed failure rfl)

/-- A request, first in a sequence. -/
theorem query_seq {request : Request} {read : Answer request → Except Failure Value}
    {next : Value → Program Request Answer Failure Result}
    {post : List (Exchange Request Answer) → Except Failure Result → Prop}
    (failed : ∀ answer failure, read answer = .error failure →
      post [⟨request, answer⟩] (.error failure))
    (after : ∀ answer value, read answer = .ok value →
      Ensures (next value) fun last result => post (⟨request, answer⟩ :: last) result) :
    Ensures (Program.query request read >>= next) post := by
  intro trace result runs
  cases runs with
  | ask _ answer rest =>
    cases reading : read answer with
    | ok value =>
      refine after answer value reading _ _ ?_
      simpa only [reading, Program.lift, Program.bind] using rest
    | error failure =>
      simp only [reading, Program.lift, Program.bind] at rest
      obtain ⟨rfl, rfl⟩ := runs_fail.mp rest
      exact failed answer failure reading

/-- A caught program, first in a sequence: the rest goes on however it ended. -/
theorem attempt_seq {program : Program Request Answer Failure Value}
    {next : Except Failure Value → Program Request Answer Other Result}
    {middle : List (Exchange Request Answer) → Except Failure Value → Prop}
    {post : List (Exchange Request Answer) → Except Other Result → Prop}
    (before : Ensures program middle)
    (after : ∀ first ending, middle first ending →
      Ensures (next ending) fun last result => post (first ++ last) result) :
    Ensures (Program.attempt program >>= next) post := by
  intro trace result whole
  rcases runs_bind.mp whole with ⟨failure, failing, rfl⟩ | ⟨first, last, value, rfl, runs, rest⟩
  · obtain ⟨_, _, impossible⟩ := runs_attempt.mp failing
    cases impossible
  · obtain ⟨ending, ended, same⟩ := runs_attempt.mp runs
    cases same
    exact after first value (before _ _ ended) last result rest

theorem weaken {program : Program Request Answer Failure Value}
    {strong weak : List (Exchange Request Answer) → Except Failure Value → Prop}
    (holds : Ensures program strong)
    (implies : ∀ trace result, strong trace result → weak trace result) : Ensures program weak :=
  fun trace result runs => implies trace result (holds trace result runs)

end Ensures

/-! ### Properties of the values -/

/-- Every value a run of the program ends with is good. -/
def Yields (program : Program Request Answer Failure Value) (good : Value → Prop) : Prop :=
  ∀ trace value, Runs program trace (.ok value) → good value

namespace Yields

variable {good : Value → Prop}

theorem pure {value : Value} (fine : good value) :
    Yields (Pure.pure value : Program Request Answer Failure Value) good := by
  intro trace other runs
  obtain ⟨_, same⟩ := runs_pure.mp runs
  cases same
  exact fine

theorem trivial (program : Program Request Answer Failure Value) :
    Yields program fun _ => True :=
  fun _ _ _ => True.intro

/-- Sequencing: the rest has what the first part yields. -/
theorem bind {program : Program Request Answer Failure Value}
    {next : Value → Program Request Answer Failure Result} {last : Result → Prop}
    (first : Yields program good) (second : ∀ value, good value → Yields (next value) last) :
    Yields (program >>= next) last := by
  intro trace result runs
  rcases runs_bind.mp runs with ⟨_, _, impossible⟩ | ⟨before, after, value, rfl, runs, rest⟩
  · cases impossible
  · exact second value (first before value runs) after result rest

end Yields

end Program

end Library

/-
This file runs several programs over one shared world, as the tasks of a single
thread: a task runs alone until it asks for something it has to wait for, and any
task may go on next.

The requests a task makes between two waits form one block that no other task can
interrupt. What tasks may ask is given as a protocol: a task carries a ghost
state, the protocol says what may be asked in it and where an answer leads, and
an invariant ties the ghost states of all tasks to the world. That every program
follows the protocol is proved along its text, without regard to the others.
-/

import OpenSocial.Library.Exchange

namespace Library

/-- How a world answers requests, at which of them a task is suspended, and how it moves by
itself. -/
structure Runtime (Request : Type) (Answer : Request → Type) (World : Type) where
  awaits : Request → Bool
  serve : World → (request : Request) → Answer request → World → Prop
  drift : World → World → Prop

namespace Runtime

variable {Request : Type} {Answer : Request → Type} {World Failure Other Value Result : Type}

/-- The same world, with answers that meet a condition only. -/
def restrict (runtime : Runtime Request Answer World)
    (meets : World → (request : Request) → Answer request → Prop) :
    Runtime Request Answer World where
  awaits := runtime.awaits
  serve world request answer after :=
    runtime.serve world request answer after ∧ meets world request answer
  drift := runtime.drift

variable (runtime : Runtime Request Answer World)

/-! ### Runs -/

/-- What a task does until it ends or waits. -/
inductive Block : World → Program Request Answer Failure Value → World →
    Program Request Answer Failure Value → Prop where
  | done {world : World} {value : Value} : Block world (.done value) world (.done value)
  | fail {world : World} {failure : Failure} : Block world (.fail failure) world (.fail failure)
  | wait {world : World} {request : Request}
      {rest : Answer request → Program Request Answer Failure Value}
      (waits : runtime.awaits request = true) :
      Block world (.ask request rest) world (.ask request rest)
  | serve {world middle after : World} {request : Request} {answer : Answer request}
      {rest : Answer request → Program Request Answer Failure Value}
      {program : Program Request Answer Failure Value} (atOnce : runtime.awaits request = false)
      (served : runtime.serve world request answer middle)
      (block : Block middle (rest answer) after program) :
      Block world (.ask request rest) after program

/-- The world, and every task started so far where it stands. -/
abbrev Configuration (Request : Type) (Answer : Request → Type) (World Failure Value : Type) :=
  World × List (Program Request Answer Failure Value)

/-- One move: the world drifts, a task starts, or one that waits gets its answer and runs on. Each
task has a runtime of its own. -/
inductive Move (runtimes : ℕ → Runtime Request Answer World) (drifts : World → World → Prop)
    (started : Program Request Answer Failure Value → Prop) :
    Configuration Request Answer World Failure Value →
      Configuration Request Answer World Failure Value → Prop where
  | drift {world later : World} {tasks : List (Program Request Answer Failure Value)}
      (drifting : drifts world later) : Move runtimes drifts started (world, tasks) (later, tasks)
  | start {world after : World} {tasks : List (Program Request Answer Failure Value)}
      {program rest : Program Request Answer Failure Value} (one : started program)
      (block : (runtimes tasks.length).Block world program after rest) :
      Move runtimes drifts started (world, tasks) (after, tasks ++ [rest])
  | resume {world middle after : World} {tasks : List (Program Request Answer Failure Value)}
      {index : ℕ} {request : Request} {answer : Answer request}
      {rest : Answer request → Program Request Answer Failure Value}
      {program : Program Request Answer Failure Value}
      (waiting : tasks[index]? = some (.ask request rest))
      (served : (runtimes index).serve world request answer middle)
      (block : (runtimes index).Block middle (rest answer) after program) :
      Move runtimes drifts started (world, tasks) (after, tasks.set index program)

/-- The configurations that a run whose tasks have these runtimes reaches. -/
def ReachesEach (runtimes : ℕ → Runtime Request Answer World) (drifts : World → World → Prop)
    (started : Program Request Answer Failure Value → Prop) :
    Configuration Request Answer World Failure Value →
      Configuration Request Answer World Failure Value → Prop :=
  Relation.ReflTransGen (Move runtimes drifts started)

/-- The configurations a run from this one reaches. -/
def Reaches (started : Program Request Answer Failure Value → Prop) :
    Configuration Request Answer World Failure Value →
      Configuration Request Answer World Failure Value → Prop :=
  ReachesEach (fun _ => runtime) runtime.drift started

/-! ### Protocols -/

/-- What a task may ask in a ghost state, which answers it can get there, and where they lead. -/
structure Protocol (Request : Type) (Answer : Request → Type) (Ghost : Type) where
  asks : Ghost → Request → Prop
  gets : Ghost → (request : Request) → Answer request → Prop
  next : Ghost → (request : Request) → Answer request → Ghost

namespace Protocol

variable {Ghost : Type} (protocol : Protocol Request Answer Ghost)

/-- From this ghost state the program follows the protocol, and ends as `post` says. -/
def Follows (post : Except Failure Value → Ghost → Prop) :
    Program Request Answer Failure Value → Ghost → Prop
  | .done value, ghost => post (.ok value) ghost
  | .fail failure, ghost => post (.error failure) ghost
  | .ask request rest, ghost => protocol.asks ghost request ∧
      ∀ answer, protocol.gets ghost request answer →
        Follows post (rest answer) (protocol.next ghost request answer)

/-- Two protocols side by side, each with a ghost state of its own. -/
def both {Other : Type} (second : Protocol Request Answer Other) :
    Protocol Request Answer (Ghost × Other) where
  asks ghost request := protocol.asks ghost.1 request ∧ second.asks ghost.2 request
  gets ghost request answer :=
    protocol.gets ghost.1 request answer ∧ second.gets ghost.2 request answer
  next ghost request answer :=
    (protocol.next ghost.1 request answer, second.next ghost.2 request answer)

namespace Follows

variable {protocol} {ghost : Ghost}

theorem weaken {strong weak : Except Failure Value → Ghost → Prop}
    {program : Program Request Answer Failure Value}
    (follows : protocol.Follows strong program ghost)
    (implies : ∀ ending later, strong ending later → weak ending later) :
    protocol.Follows weak program ghost := by
  induction program generalizing ghost with
  | done value => exact implies _ _ follows
  | fail failure => exact implies _ _ follows
  | ask request rest inductionHypothesis =>
    exact ⟨follows.1, fun answer gotten => inductionHypothesis answer (follows.2 answer gotten)⟩

/-- Sequencing: the second part starts where the first one ended. -/
theorem seq {program : Program Request Answer Failure Value}
    {next : Value → Program Request Answer Failure Result}
    {middle : Except Failure Value → Ghost → Prop} {post : Except Failure Result → Ghost → Prop}
    (before : protocol.Follows middle program ghost)
    (failed : ∀ failure later, middle (.error failure) later → post (.error failure) later)
    (after : ∀ value later, middle (.ok value) later → protocol.Follows post (next value) later) :
    protocol.Follows post (program >>= next) ghost := by
  induction program generalizing ghost with
  | done value => exact after value ghost before
  | fail failure => exact failed failure ghost before
  | ask request rest inductionHypothesis =>
    exact ⟨before.1, fun answer gotten => inductionHypothesis answer (before.2 answer gotten)⟩

/-- A computation that asks nothing, first in a sequence. -/
theorem lift_seq {computation : Except Failure Value}
    {next : Value → Program Request Answer Failure Result}
    {post : Except Failure Result → Ghost → Prop}
    (failed : ∀ failure, computation = .error failure → post (.error failure) ghost)
    (after : ∀ value, computation = .ok value → protocol.Follows post (next value) ghost) :
    protocol.Follows post (Program.lift computation >>= next) ghost := by
  cases computation with
  | ok value => exact after value rfl
  | error failure => exact failed failure rfl

/-- A request, first in a sequence. -/
theorem query_seq {request : Request} {read : Answer request → Except Failure Value}
    {next : Value → Program Request Answer Failure Result}
    {post : Except Failure Result → Ghost → Prop} (asks : protocol.asks ghost request)
    (failed : ∀ answer failure, protocol.gets ghost request answer → read answer = .error failure →
      post (.error failure) (protocol.next ghost request answer))
    (after : ∀ answer value, protocol.gets ghost request answer → read answer = .ok value →
      protocol.Follows post (next value) (protocol.next ghost request answer)) :
    protocol.Follows post (Program.query request read >>= next) ghost := by
  refine ⟨asks, fun answer gotten => ?_⟩
  show protocol.Follows post ((Program.lift (read answer)).bind next) _
  cases reading : read answer with
  | ok value => exact after answer value gotten reading
  | error failure => exact failed answer failure gotten reading

/-- A caught program, first in a sequence: the rest goes on however it ended. -/
theorem attempt_seq {program : Program Request Answer Failure Value}
    {next : Except Failure Value → Program Request Answer Other Result}
    {middle : Except Failure Value → Ghost → Prop} {post : Except Other Result → Ghost → Prop}
    (before : protocol.Follows middle program ghost)
    (after : ∀ ending later, middle ending later → protocol.Follows post (next ending) later) :
    protocol.Follows post (Program.attempt program >>= next) ghost := by
  induction program generalizing ghost with
  | done value => exact after (.ok value) ghost before
  | fail failure => exact after (.error failure) ghost before
  | ask request rest inductionHypothesis =>
    exact ⟨before.1, fun answer gotten => inductionHypothesis answer (before.2 answer gotten)⟩

/-- A program within a wider kind of requests follows a protocol that does there what its own
does. -/
theorem within {Wider Broader : Type} {WiderAnswer : Wider → Type} {into : Request → Wider}
    {inner : Protocol Request (fun request => WiderAnswer (into request)) Ghost}
    {outer : Protocol Wider WiderAnswer Broader} {embed : Ghost → Broader}
    (asks : ∀ ghost request, inner.asks ghost request → outer.asks (embed ghost) (into request))
    (gets : ∀ ghost request answer, outer.gets (embed ghost) (into request) answer →
      inner.gets ghost request answer)
    (next : ∀ ghost request answer, outer.next (embed ghost) (into request) answer =
      embed (inner.next ghost request answer))
    {post : Except Failure Value → Ghost → Prop}
    {program : Program Request (fun request => WiderAnswer (into request)) Failure Value}
    {ghost : Ghost} (follows : inner.Follows post program ghost) :
    outer.Follows (fun ending later => ∃ last, later = embed last ∧ post ending last)
      (Program.within into program) (embed ghost) := by
  induction program generalizing ghost with
  | done value => exact ⟨ghost, rfl, follows⟩
  | fail failure => exact ⟨ghost, rfl, follows⟩
  | ask request rest inductionHypothesis =>
    refine ⟨asks ghost request follows.1, fun answer gotten => ?_⟩
    rw [next]
    exact inductionHypothesis answer (follows.2 answer (gets ghost request answer gotten))

/-- A program that follows two protocols follows both at once. -/
theorem both {Other : Type} {second : Protocol Request Answer Other} {state : Other}
    {post : Except Failure Value → Ghost → Prop} {later : Except Failure Value → Other → Prop}
    {program : Program Request Answer Failure Value} (one : protocol.Follows post program ghost)
    (other : second.Follows later program state) :
    (protocol.both second).Follows (fun ending last => post ending last.1 ∧ later ending last.2)
      program (ghost, state) := by
  induction program generalizing ghost state with
  | done value => exact ⟨one, other⟩
  | fail failure => exact ⟨one, other⟩
  | ask request rest inductionHypothesis =>
    exact ⟨⟨one.1, other.1⟩, fun answer gotten => inductionHypothesis answer
      (one.2 answer gotten.1) (other.2 answer gotten.2)⟩

/-- What a run asks under a protocol of one state that expects nothing of the answers. -/
theorem asked (free : ∀ request answer, protocol.gets ghost request answer)
    (still : ∀ request answer, protocol.next ghost request answer = ghost)
    {post : Except Failure Value → Ghost → Prop} {program : Program Request Answer Failure Value}
    (follows : protocol.Follows post program ghost)
    {trace : List (Program.Exchange Request Answer)} {result : Except Failure Value}
    (runs : Program.Runs program trace result) :
    (∀ exchange ∈ trace, protocol.asks ghost exchange.1) ∧ post result ghost := by
  induction runs with
  | done value => exact ⟨fun exchange impossible => absurd impossible List.not_mem_nil, follows⟩
  | fail failure => exact ⟨fun exchange impossible => absurd impossible List.not_mem_nil, follows⟩
  | ask request answer runs inductionHypothesis =>
    have rest := follows.2 answer (free request answer)
    rw [still] at rest
    obtain ⟨asks, ended⟩ := inductionHypothesis rest
    refine ⟨fun exchange member => ?_, ended⟩
    rcases List.mem_cons.mp member with rfl | later
    · exact follows.1
    · exact asks exchange later

end Follows

end Protocol

/-! ### Invariants of runs -/

section Invariants

variable {runtime} {Ghost : Type} {protocol : Protocol Request Answer Ghost}
  {started : Program Request Answer Failure Value → Prop} {invariant : World → List Ghost → Prop}

/-- Every task is where its ghost state says. -/
structure Standing (protocol : Protocol Request Answer Ghost)
    (tasks : List (Program Request Answer Failure Value)) (ghosts : List Ghost) : Prop where
  length : tasks.length = ghosts.length
  follows : ∀ (index : ℕ) (program : Program Request Answer Failure Value) (ghost : Ghost),
    tasks[index]? = some program → ghosts[index]? = some ghost →
      protocol.Follows (fun _ _ => True) program ghost

namespace Standing

variable {tasks : List (Program Request Answer Failure Value)} {ghosts : List Ghost}

theorem nil : Standing protocol ([] : List (Program Request Answer Failure Value)) [] := by
  refine ⟨rfl, fun index program ghost impossible => ?_⟩
  rw [List.getElem?_nil] at impossible
  cases impossible

theorem append (standing : Standing protocol tasks ghosts)
    {program : Program Request Answer Failure Value} {ghost : Ghost}
    (follows : protocol.Follows (fun _ _ => True) program ghost) :
    Standing protocol (tasks ++ [program]) (ghosts ++ [ghost]) where
  length := by rw [List.length_append, List.length_append, standing.length]; rfl
  follows := by
    intro index task state found given
    by_cases old : index < tasks.length
    · rw [List.getElem?_append_left old] at found
      rw [List.getElem?_append_left (standing.length ▸ old)] at given
      exact standing.follows index task state found given
    · rw [List.getElem?_append_right (not_lt.mp old)] at found
      rw [List.getElem?_append_right (standing.length ▸ not_lt.mp old), ← standing.length] at given
      cases position : index - tasks.length with
      | zero =>
        rw [position] at found given
        obtain rfl := Option.some.inj found
        obtain rfl := Option.some.inj given
        exact follows
      | succ position' =>
        rw [position] at found
        cases found

theorem set (standing : Standing protocol tasks ghosts) (position : ℕ)
    {program : Program Request Answer Failure Value} {ghost : Ghost}
    (follows : protocol.Follows (fun _ _ => True) program ghost) :
    Standing protocol (tasks.set position program) (ghosts.set position ghost) where
  length := by rw [List.length_set, List.length_set, standing.length]
  follows := by
    intro index task state found given
    by_cases same : position = index
    · subst same
      obtain ⟨inside, rfl⟩ := List.getElem?_eq_some_iff.mp found
      obtain ⟨_, rfl⟩ := List.getElem?_eq_some_iff.mp given
      rw [List.getElem_set_self, List.getElem_set_self]
      exact follows
    · rw [List.getElem?_set_ne same] at found given
      exact standing.follows index task state found given

end Standing

/-- A block serves what its task may ask, so it keeps the invariant and leaves the task on its
protocol. -/
theorem invariant_block {index : ℕ}
    (serves : ∀ world ghosts ghost request answer after, invariant world ghosts →
      ghosts[index]? = some ghost → protocol.asks ghost request →
      runtime.serve world request answer after →
      protocol.gets ghost request answer ∧
        invariant after (ghosts.set index (protocol.next ghost request answer)))
    {world after : World} {program rest : Program Request Answer Failure Value}
    (block : runtime.Block world program after rest) {ghosts : List Ghost} {ghost : Ghost}
    (holds : invariant world ghosts) (found : ghosts[index]? = some ghost)
    (follows : protocol.Follows (fun _ _ => True) program ghost) :
    ∃ later, invariant after (ghosts.set index later) ∧
      protocol.Follows (fun _ _ => True) rest later := by
  have unchanged : ghosts.set index ghost = ghosts := by
    obtain ⟨inside, rfl⟩ := List.getElem?_eq_some_iff.mp found
    exact List.set_getElem_self inside
  induction block generalizing ghosts ghost with
  | done => exact ⟨ghost, unchanged.symm ▸ holds, follows⟩
  | fail => exact ⟨ghost, unchanged.symm ▸ holds, follows⟩
  | wait waits => exact ⟨ghost, unchanged.symm ▸ holds, follows⟩
  | serve atOnce served block inductionHypothesis =>
    obtain ⟨gotten, kept⟩ := serves _ _ _ _ _ _ holds found follows.1 served
    have inside : index < ghosts.length := (List.getElem?_eq_some_iff.mp found).1
    obtain ⟨later, still, going⟩ := inductionHypothesis kept (List.getElem?_set_self inside)
      (follows.2 _ gotten) (List.set_set ..)
    rw [List.set_set] at still
    exact ⟨later, still, going⟩

/-- Throughout a run of programs that follow the protocol, the world and the ghost states of the
tasks keep their invariant, and every task is where its ghost state says. -/
theorem invariant_reachesEach {runtimes : ℕ → Runtime Request Answer World}
    {drifting : World → World → Prop}
    (drifts : ∀ world later ghosts, invariant world ghosts → drifting world later →
      invariant later ghosts)
    (serves : ∀ index world ghosts ghost request answer after, invariant world ghosts →
      ghosts[index]? = some ghost → protocol.asks ghost request →
      (runtimes index).serve world request answer after →
      protocol.gets ghost request answer ∧
        invariant after (ghosts.set index (protocol.next ghost request answer)))
    (starts : ∀ program world ghosts, started program → invariant world ghosts →
      ∃ ghost, protocol.Follows (fun _ _ => True) program ghost ∧
        invariant world (ghosts ++ [ghost]))
    {first last : Configuration Request Answer World Failure Value} {ghosts : List Ghost}
    (holds : invariant first.1 ghosts) (standing : Standing protocol first.2 ghosts)
    (reached : ReachesEach runtimes drifting started first last) :
    ∃ ghosts, invariant last.1 ghosts ∧ Standing protocol last.2 ghosts := by
  induction reached with
  | refl => exact ⟨ghosts, holds, standing⟩
  | tail before move inductionHypothesis =>
    obtain ⟨ghosts, kept, standing⟩ := inductionHypothesis
    cases move with
    | drift drifting => exact ⟨ghosts, drifts _ _ _ kept drifting, standing⟩
    | start one block =>
      obtain ⟨ghost, follows, joined⟩ := starts _ _ _ one kept
      rw [standing.length] at block
      obtain ⟨later, still, going⟩ := invariant_block (serves ghosts.length) block joined
        List.getElem?_concat_length follows
      have replaced : (ghosts ++ [ghost]).set ghosts.length later = ghosts ++ [later] := by
        rw [List.set_append_right _ _ le_rfl, Nat.sub_self]
        rfl
      rw [replaced] at still
      exact ⟨_, still, standing.append going⟩
    | @resume _ _ _ _ index _ _ _ _ waiting served block =>
      have inside := (List.getElem?_eq_some_iff.mp waiting).1
      have counted : index < ghosts.length := standing.length ▸ inside
      have given : ghosts[index]? = some ghosts[index] := List.getElem?_eq_getElem counted
      have follows := standing.follows index _ _ waiting given
      obtain ⟨gotten, next⟩ := serves index _ _ _ _ _ _ kept given follows.1 served
      obtain ⟨later, still, going⟩ := invariant_block (serves index) block next
        (List.getElem?_set_self counted) (follows.2 _ gotten)
      rw [List.set_set] at still
      exact ⟨_, still, standing.set index going⟩

theorem invariant_reached
    (drifts : ∀ world later ghosts, invariant world ghosts → runtime.drift world later →
      invariant later ghosts)
    (serves : ∀ index world ghosts ghost request answer after, invariant world ghosts →
      ghosts[index]? = some ghost → protocol.asks ghost request →
      runtime.serve world request answer after →
      protocol.gets ghost request answer ∧
        invariant after (ghosts.set index (protocol.next ghost request answer)))
    (starts : ∀ program world ghosts, started program → invariant world ghosts →
      ∃ ghost, protocol.Follows (fun _ _ => True) program ghost ∧
        invariant world (ghosts ++ [ghost]))
    {first last : Configuration Request Answer World Failure Value} {ghosts : List Ghost}
    (holds : invariant first.1 ghosts) (standing : Standing protocol first.2 ghosts)
    (reached : runtime.Reaches started first last) :
    ∃ ghosts, invariant last.1 ghosts ∧ Standing protocol last.2 ghosts :=
  invariant_reachesEach drifts serves starts holds standing reached

/-- What every answer and every drift keeps holds throughout a run, whatever the tasks ask. -/
theorem served_reached {invariant : World → Prop}
    (drifts : ∀ world later, invariant world → runtime.drift world later → invariant later)
    (serves : ∀ world request answer after, invariant world →
      runtime.serve world request answer after → invariant after)
    {first last : Configuration Request Answer World Failure Value} (holds : invariant first.1)
    (reached : runtime.Reaches started first last) : invariant last.1 := by
  have blocks : ∀ {world after : World} {program rest : Program Request Answer Failure Value},
      runtime.Block world program after rest → invariant world → invariant after := by
    intro world after program rest block
    induction block with
    | done => exact id
    | fail => exact id
    | wait waits => exact id
    | serve atOnce served block inductionHypothesis =>
      exact fun kept => inductionHypothesis (serves _ _ _ _ kept served)
  induction reached with
  | refl => exact holds
  | tail before move inductionHypothesis =>
    cases move with
    | drift drifting => exact drifts _ _ inductionHypothesis drifting
    | start one block => exact blocks block inductionHypothesis
    | resume waiting served block =>
      exact blocks block (serves _ _ _ _ inductionHypothesis served)

end Invariants

/-! ### Invariants between blocks -/

section Blocks

variable {runtime} {world : World}

/-- Every block of the program ends in such a world, before such a rest. -/
def BlockEnds (runtime : Runtime Request Answer World) (world : World)
    (program : Program Request Answer Failure Value)
    (post : World → Program Request Answer Failure Value → Prop) : Prop :=
  ∀ after rest, runtime.Block world program after rest → post after rest

namespace BlockEnds

variable {post : World → Program Request Answer Failure Result → Prop}

theorem done {value : Result} (holds : post world (.done value)) :
    runtime.BlockEnds world (.done value) post := by
  rintro after rest ⟨⟩
  exact holds

theorem fail {failure : Failure} (holds : post world (.fail failure)) :
    runtime.BlockEnds world (.fail failure) post := by
  rintro after rest ⟨⟩
  exact holds

/-- At a wait the block ends. -/
theorem wait {request : Request} {rest : Answer request → Program Request Answer Failure Result}
    (waits : runtime.awaits request = true) (holds : post world (.ask request rest)) :
    runtime.BlockEnds world (.ask request rest) post := by
  intro after program block
  cases block with
  | wait _ => exact holds
  | serve atOnce _ _ => exact absurd waits (Bool.eq_false_iff.mp atOnce)

/-- What is answered at once does not end the block. -/
theorem serve {request : Request} {rest : Answer request → Program Request Answer Failure Result}
    (atOnce : runtime.awaits request = false)
    (goes : ∀ answer middle, runtime.serve world request answer middle →
      runtime.BlockEnds middle (rest answer) post) :
    runtime.BlockEnds world (.ask request rest) post := by
  intro after program block
  cases block with
  | wait waits => exact absurd waits (Bool.eq_false_iff.mp atOnce)
  | serve _ served block => exact goes _ _ served after program block

/-- A computation that asks nothing, first in a sequence. -/
theorem lift_seq {computation : Except Failure Value}
    {next : Value → Program Request Answer Failure Result}
    (failed : ∀ failure, computation = .error failure → post world (.fail failure))
    (goes : ∀ value, computation = .ok value → runtime.BlockEnds world (next value) post) :
    runtime.BlockEnds world (Program.lift computation >>= next) post := by
  cases computation with
  | ok value => exact goes value rfl
  | error failure => exact fail (failed failure rfl)

end BlockEnds

/-- What every block keeps holds throughout a run, and every task stands as blocks leave it. The
world may be anything inside a block. -/
theorem blocks_reached {started : Program Request Answer Failure Value → Prop}
    {invariant : World → Prop} {stands : Program Request Answer Failure Value → Prop}
    (drifts : ∀ world later, invariant world → runtime.drift world later → invariant later)
    (starts : ∀ world program, started program → invariant world →
      runtime.BlockEnds world program fun after rest => invariant after ∧ stands rest)
    (resumes : ∀ world request (rest : Answer request → Program Request Answer Failure Value)
      answer middle, stands (.ask request rest) → invariant world →
      runtime.serve world request answer middle →
      runtime.BlockEnds middle (rest answer) fun after program => invariant after ∧ stands program)
    {first last : Configuration Request Answer World Failure Value} (holds : invariant first.1)
    (standing : ∀ task ∈ first.2, stands task) (reached : runtime.Reaches started first last) :
    invariant last.1 ∧ ∀ task ∈ last.2, stands task := by
  induction reached with
  | refl => exact ⟨holds, standing⟩
  | tail before move inductionHypothesis =>
    obtain ⟨kept, standing⟩ := inductionHypothesis
    cases move with
    | drift drifting => exact ⟨drifts _ _ kept drifting, standing⟩
    | start one block =>
      obtain ⟨still, stands⟩ := starts _ _ one kept _ _ block
      refine ⟨still, fun task member => ?_⟩
      rcases List.mem_append.mp member with old | new
      · exact standing task old
      · exact List.mem_singleton.mp new ▸ stands
    | resume waiting served block =>
      obtain ⟨still, stands⟩ := resumes _ _ _ _ _
        (standing _ (List.mem_of_getElem? waiting)) kept served _ _ block
      refine ⟨still, fun task member => ?_⟩
      rcases List.mem_or_eq_of_mem_set member with old | rfl
      · exact standing task old
      · exact stands

end Blocks

/-! ### Playing a run -/

/-- Whose turn it is: the world's, a new program's, or a waiting task's, which gets this answer. -/
inductive Turn (Request : Type) (Answer : Request → Type) (World Failure Value : Type) where
  | drift (later : World → World)
  | start (program : Program Request Answer Failure Value)
  | resume (index : ℕ) (respond : World → (request : Request) → Answer request × World)

section Play

variable (awaits : Request → Bool) (act : World → (request : Request) → Answer request × World)
  (permits : World → Request → Bool)

/-- Run a program to its next wait, with the answers given at once. -/
def playBlock :
    Program Request Answer Failure Value → World → World × Program Request Answer Failure Value
  | .done value, world => (world, .done value)
  | .fail failure, world => (world, .fail failure)
  | .ask request rest, world =>
    if awaits request then (world, .ask request rest)
    else playBlock (rest (act world request).1) (act world request).2

/-- Everything a program asks before its next wait is permitted. -/
def permitsBlock : Program Request Answer Failure Value → World → Bool
  | .done _, _ => true
  | .fail _, _ => true
  | .ask request rest, world =>
    awaits request || (permits world request &&
      permitsBlock (rest (act world request).1) (act world request).2)

/-- The task that goes on, with the world its answer leaves, if the turn is a waiting task's. -/
def resumed (configuration : Configuration Request Answer World Failure Value) (index : ℕ)
    (respond : World → (request : Request) → Answer request × World) :
    Option (World × Program Request Answer Failure Value) :=
  match configuration.2[index]? with
  | some (.ask request rest) =>
    if awaits request then
      some ((respond configuration.1 request).2, rest (respond configuration.1 request).1)
    else none
  | _ => none

variable (acts : ℕ → World → (request : Request) → Answer request × World)
  (permit : ℕ → World → Request → Bool)

/-- One turn, where each task is answered in its own way. -/
def takeEach (configuration : Configuration Request Answer World Failure Value) :
    Turn Request Answer World Failure Value → Configuration Request Answer World Failure Value
  | .drift later => (later configuration.1, configuration.2)
  | .start program =>
    let (after, rest) := playBlock awaits (acts configuration.2.length) program configuration.1
    (after, configuration.2 ++ [rest])
  | .resume index respond =>
    (resumed awaits configuration index respond).elim configuration fun going =>
      let (after, rest) := playBlock awaits (acts index) going.2 going.1
      (after, configuration.2.set index rest)

/-- Everything asked at once in a turn is permitted. -/
def permitsTurn (configuration : Configuration Request Answer World Failure Value) :
    Turn Request Answer World Failure Value → Bool
  | .drift _ => true
  | .start program =>
    permitsBlock awaits (acts configuration.2.length) (permit configuration.2.length) program
      configuration.1
  | .resume index respond =>
    (resumed awaits configuration index respond).all fun going =>
      permitsBlock awaits (acts index) (permit index) going.2 going.1

/-- The configuration after some turns. -/
def playEach (configuration : Configuration Request Answer World Failure Value)
    (turns : List (Turn Request Answer World Failure Value)) :
    Configuration Request Answer World Failure Value :=
  turns.foldl (takeEach awaits acts) configuration

/-- Everything asked at once in some turns is permitted. -/
def permitsEach : Configuration Request Answer World Failure Value →
    List (Turn Request Answer World Failure Value) → Bool
  | _, [] => true
  | configuration, turn :: turns => permitsTurn awaits acts permit configuration turn &&
      permitsEach (takeEach awaits acts configuration turn) turns

/-- The configuration after some turns, where all tasks are answered alike. -/
def play (configuration : Configuration Request Answer World Failure Value)
    (turns : List (Turn Request Answer World Failure Value)) :
    Configuration Request Answer World Failure Value :=
  playEach awaits (fun _ => act) configuration turns

def permitsPlay (configuration : Configuration Request Answer World Failure Value)
    (turns : List (Turn Request Answer World Failure Value)) : Bool :=
  permitsEach awaits (fun _ => act) (fun _ => permits) configuration turns

end Play

/-- Turns a run may take. -/
def Turn.AllowedEach (runtimes : ℕ → Runtime Request Answer World) (drifts : World → World → Prop)
    (started : Program Request Answer Failure Value → Prop) :
    Turn Request Answer World Failure Value → Prop
  | .drift later => ∀ world, drifts world (later world)
  | .start program => started program
  | .resume index respond => ∀ world request, (runtimes index).awaits request = true →
      (runtimes index).serve world request (respond world request).1 (respond world request).2

abbrev Turn.Allowed (runtime : Runtime Request Answer World)
    (started : Program Request Answer Failure Value → Prop) :
    Turn Request Answer World Failure Value → Prop :=
  Turn.AllowedEach (fun _ => runtime) runtime.drift started

section Play

variable {runtime} {act : World → (request : Request) → Answer request × World}
  {permits : World → Request → Bool} {started : Program Request Answer Failure Value → Prop}

theorem block_playBlock (serving : ∀ world request, runtime.awaits request = false →
      permits world request = true →
      runtime.serve world request (act world request).1 (act world request).2)
    (program : Program Request Answer Failure Value) (world : World)
    (permitted : permitsBlock runtime.awaits act permits program world = true) :
    runtime.Block world program (playBlock runtime.awaits act program world).1
      (playBlock runtime.awaits act program world).2 := by
  induction program generalizing world with
  | done value => exact .done
  | fail failure => exact .fail
  | ask request rest inductionHypothesis =>
    unfold playBlock
    split
    · next waits => exact .wait waits
    · next atOnce =>
      have now := Bool.eq_false_iff.mpr atOnce
      unfold permitsBlock at permitted
      rw [now, Bool.false_or, Bool.and_eq_true] at permitted
      exact .serve now (serving world request now permitted.1)
        (inductionHypothesis _ _ permitted.2)

section Each

variable {runtimes : ℕ → Runtime Request Answer World} {drifting : World → World → Prop}
  {acts : ℕ → World → (request : Request) → Answer request × World}
  {permit : ℕ → World → Request → Bool} {awaits : Request → Bool}
  (awaiting : ∀ index, (runtimes index).awaits = awaits)
  (serving : ∀ index world request, awaits request = false → permit index world request = true →
    (runtimes index).serve world request (acts index world request).1
      (acts index world request).2)

include awaiting serving

theorem block_playEach (index : ℕ) (program : Program Request Answer Failure Value)
    (world : World)
    (permitted : permitsBlock awaits (acts index) (permit index) program world = true) :
    (runtimes index).Block world program (playBlock awaits (acts index) program world).1
      (playBlock awaits (acts index) program world).2 := by
  rw [← awaiting index] at permitted ⊢
  exact block_playBlock (fun world request atOnce => serving index world request
    (awaiting index ▸ atOnce)) program world permitted

theorem move_take {turn : Turn Request Answer World Failure Value}
    (allowed : turn.AllowedEach runtimes drifting started)
    (configuration : Configuration Request Answer World Failure Value)
    (permitted : permitsTurn awaits acts permit configuration turn = true) :
    ReachesEach runtimes drifting started configuration
      (takeEach awaits acts configuration turn) := by
  obtain ⟨world, tasks⟩ := configuration
  cases turn with
  | drift later => exact .single (.drift (allowed world))
  | start program =>
    exact .single (.start allowed (block_playEach awaiting serving tasks.length program world
      permitted))
  | resume index respond =>
    unfold takeEach
    unfold permitsTurn at permitted
    dsimp only at permitted ⊢
    cases going : resumed awaits (world, tasks) index respond with
    | none => exact .refl
    | some next =>
      rw [going] at permitted
      unfold resumed at going
      dsimp only at going
      split at going
      · next request rest waiting =>
        split at going
        · next waits =>
          obtain rfl := Option.some.inj going
          exact .single (.resume waiting (allowed world request (awaiting index ▸ waits))
            (block_playEach awaiting serving index _ _ permitted))
        · cases going
      · cases going

/-- What is played in allowed turns, and asks only what is permitted, is part of a run. -/
theorem reachesEach_permitted (turns : List (Turn Request Answer World Failure Value))
    (allowed : ∀ turn ∈ turns, turn.AllowedEach runtimes drifting started)
    (configuration : Configuration Request Answer World Failure Value)
    (permitted : permitsEach awaits acts permit configuration turns = true) :
    ReachesEach runtimes drifting started configuration
      (playEach awaits acts configuration turns) := by
  induction turns generalizing configuration with
  | nil => exact .refl
  | cons turn turns inductionHypothesis =>
    unfold permitsEach at permitted
    rw [Bool.and_eq_true] at permitted
    exact (move_take awaiting serving (allowed turn List.mem_cons_self) configuration
      permitted.1).trans (inductionHypothesis
        (fun later member => allowed later (List.mem_cons_of_mem _ member)) _ permitted.2)

end Each

theorem reaches_permitted (serving : ∀ world request, runtime.awaits request = false →
      permits world request = true →
      runtime.serve world request (act world request).1 (act world request).2)
    (turns : List (Turn Request Answer World Failure Value))
    (allowed : ∀ turn ∈ turns, turn.Allowed runtime started)
    (configuration : Configuration Request Answer World Failure Value)
    (permitted : permitsPlay runtime.awaits act permits configuration turns = true) :
    runtime.Reaches started configuration (play runtime.awaits act configuration turns) :=
  reachesEach_permitted (fun _ => rfl) (fun _ => serving) turns allowed configuration permitted

theorem permitsBlock_all {awaits : Request → Bool} (program : Program Request Answer Failure Value)
    (world : World) : permitsBlock awaits act (fun _ _ => true) program world = true := by
  induction program generalizing world with
  | done value => rfl
  | fail failure => rfl
  | ask request rest inductionHypothesis =>
    unfold permitsBlock
    rw [inductionHypothesis, Bool.true_and, Bool.or_true]

theorem permitsEach_all {awaits : Request → Bool}
    {acts : ℕ → World → (request : Request) → Answer request × World}
    (turns : List (Turn Request Answer World Failure Value))
    (configuration : Configuration Request Answer World Failure Value) :
    permitsEach awaits acts (fun _ _ _ => true) configuration turns = true := by
  induction turns generalizing configuration with
  | nil => rfl
  | cons turn turns inductionHypothesis =>
    unfold permitsEach
    rw [inductionHypothesis, Bool.and_true]
    cases turn with
    | drift later => rfl
    | start program => exact permitsBlock_all program configuration.1
    | resume index respond =>
      unfold permitsTurn
      dsimp only
      cases resumed awaits configuration index respond with
      | none => rfl
      | some next => exact permitsBlock_all next.2 next.1

/-- What is played in allowed turns is part of a run. -/
theorem reaches_play (serving : ∀ world request, runtime.awaits request = false →
      runtime.serve world request (act world request).1 (act world request).2)
    (turns : List (Turn Request Answer World Failure Value))
    (allowed : ∀ turn ∈ turns, turn.Allowed runtime started)
    (configuration : Configuration Request Answer World Failure Value) :
    runtime.Reaches started configuration (play runtime.awaits act configuration turns) :=
  reaches_permitted (fun world request now _ => serving world request now) turns allowed
    configuration (permitsEach_all turns configuration)

end Play

end Runtime

end Library

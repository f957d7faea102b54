/-
This file runs programs against a world that answers them and moves on its own.

A service says how the world drifts between two requests and which answers it
may give. One program runs at a time; it can be stopped anywhere, as when the
process under it is killed, and the world keeps what was done until then. What a
program may ask is judged in the world that stands when it asks: the rules below
prove along the program text that it only asks what is allowed, and from it an
invariant of every configuration a run reaches.
-/

import OpenSocial.Library.Exchange

namespace Library

/-- How a world moves by itself, in any number of steps, and how it answers a request. -/
structure Service (Request : Type) (Answer : Request → Type) (World : Type) where
  drift : World → World → Prop
  serve : World → (request : Request) → Answer request → World → Prop
  drift_refl : ∀ world, drift world world
  drift_trans : ∀ first second third, drift first second → drift second third → drift first third

/-- The order in which a sequence is put together does not matter. -/
theorem Program.bind_assoc {Request : Type} {Answer : Request → Type}
    {Failure Value Middle Result : Type} (program : Program Request Answer Failure Value)
    (first : Value → Program Request Answer Failure Middle)
    (second : Middle → Program Request Answer Failure Result) :
    (program >>= first) >>= second = program >>= fun value => first value >>= second := by
  induction program with
  | done value => rfl
  | fail failure => rfl
  | ask request rest inductionHypothesis =>
    exact congrArg (Program.ask request) (funext inductionHypothesis)

namespace Service

variable {Request : Type} {Answer : Request → Type} {World Failure Other Value Result : Type}

/-- The same world, with answers that meet a condition only. -/
def restrict (service : Service Request Answer World)
    (meets : World → (request : Request) → Answer request → Prop) :
    Service Request Answer World where
  drift := service.drift
  serve world request answer after :=
    service.serve world request answer after ∧ meets world request answer
  drift_refl := service.drift_refl
  drift_trans := service.drift_trans

/-- The same world with a note beside it, which only tells what was asked and answered. -/
def noting {Note : Type} (service : Service Request Answer World)
    (note : (request : Request) → Answer request → World → Note → Note) :
    Service Request Answer (World × Note) where
  drift before later := service.drift before.1 later.1 ∧ later.2 = before.2
  serve before request answer after :=
    service.serve before.1 request answer after.1 ∧ after.2 = note request answer after.1 before.2
  drift_refl before := ⟨service.drift_refl before.1, rfl⟩
  drift_trans _ _ _ first second :=
    ⟨service.drift_trans _ _ _ first.1 second.1, second.2.trans first.2⟩

/-! ### Runs -/

/-- The world, and the rest of the program that runs in it, if one does. -/
abbrev Configuration (Request : Type) (Answer : Request → Type) (World Failure Value : Type) :=
  World × Option (Program Request Answer Failure Value)

variable (service : Service Request Answer World)

/-- One move: the world drifts, a program is started or gets an answer, or it ends or is killed. -/
inductive Move (started : Program Request Answer Failure Value → Prop) :
    Configuration Request Answer World Failure Value →
      Configuration Request Answer World Failure Value → Prop where
  | drift {world later : World} {running : Option (Program Request Answer Failure Value)}
      (drifts : service.drift world later) : Move started (world, running) (later, running)
  | start {world : World} {program : Program Request Answer Failure Value}
      (one : started program) : Move started (world, none) (world, some program)
  | answer {world after : World} {request : Request} {answer : Answer request}
      {rest : Answer request → Program Request Answer Failure Value}
      (served : service.serve world request answer after) :
      Move started (world, some (.ask request rest)) (after, some (rest answer))
  | stop {world : World} {program : Program Request Answer Failure Value} :
      Move started (world, some program) (world, none)

/-- The configurations a run from this world reaches. -/
def Reaches (started : Program Request Answer Failure Value → Prop) (initial : World) :
    Configuration Request Answer World Failure Value → Prop :=
  Relation.ReflTransGen (service.Move started) (initial, none)

/-- The configurations of a run that starts a program only in a world that admits it. -/
inductive Admits (admits : World → Program Request Answer Failure Value → Prop)
    (initial : World) : Configuration Request Answer World Failure Value → Prop where
  | refl : Admits admits initial (initial, none)
  | drift {world later : World} {running : Option (Program Request Answer Failure Value)}
      (before : Admits admits initial (world, running)) (drifts : service.drift world later) :
      Admits admits initial (later, running)
  | start {world : World} {program : Program Request Answer Failure Value}
      (before : Admits admits initial (world, none)) (one : admits world program) :
      Admits admits initial (world, some program)
  | answer {world after : World} {request : Request} {answer : Answer request}
      {rest : Answer request → Program Request Answer Failure Value}
      (before : Admits admits initial (world, some (.ask request rest)))
      (served : service.serve world request answer after) :
      Admits admits initial (after, some (rest answer))
  | stop {world : World} {program : Program Request Answer Failure Value}
      (before : Admits admits initial (world, some program)) :
      Admits admits initial (world, none)

/-- A run that starts programs anywhere. -/
theorem admits_of_reaches {service : Service Request Answer World}
    {started : Program Request Answer Failure Value → Prop} {initial : World}
    {configuration : Configuration Request Answer World Failure Value}
    (reached : service.Reaches started initial configuration) :
    service.Admits (fun _ => started) initial configuration := by
  induction reached with
  | refl => exact .refl
  | tail before move inductionHypothesis =>
    cases move with
    | drift drifting => exact inductionHypothesis.drift drifting
    | start one => exact inductionHypothesis.start one
    | answer served => exact inductionHypothesis.answer served
    | stop => exact inductionHypothesis.stop

/-- Every run has its note. -/
theorem reaches_noting {Note : Type} {service : Service Request Answer World}
    {meets : World → (request : Request) → Answer request → Prop}
    (note : (request : Request) → Answer request → World → Note → Note) (blank : Note)
    {started : Program Request Answer Failure Value → Prop} {initial : World}
    {configuration : Configuration Request Answer World Failure Value}
    (reached : (service.restrict meets).Reaches started initial configuration) :
    ∃ written, ((service.noting note).restrict fun both => meets both.1).Reaches started
      (initial, blank) ((configuration.1, written), configuration.2) := by
  induction reached with
  | refl => exact ⟨blank, .refl⟩
  | tail before move inductionHypothesis =>
    obtain ⟨written, noted⟩ := inductionHypothesis
    cases move with
    | drift drifting => exact ⟨written, noted.tail (.drift ⟨drifting, rfl⟩)⟩
    | start one => exact ⟨written, noted.tail (.start one)⟩
    | @answer world after request answer rest served =>
      exact ⟨note request answer after written,
        noted.tail (.answer ⟨⟨served.1, rfl⟩, served.2⟩)⟩
    | stop => exact ⟨written, noted.tail .stop⟩

/-- The request a program is about to make. -/
def pending : Program Request Answer Failure Value → Option Request
  | .ask request _ => some request
  | _ => none

/-! ### What programs may ask -/

/-- However the world drifts and answers while it keeps its invariant, the program asks only what is
allowed at that moment, and `post` holds of what it returns and stays true from then on. -/
def Obeys (invariant : World → Prop) (allowed : World → Request → Prop)
    (post : Value → World → Prop) : Program Request Answer Failure Value → World → Prop
  | .done value, world => ∀ later, service.drift world later → invariant later → post value later
  | .fail _, _ => True
  | .ask request rest, world => ∀ later, service.drift world later → invariant later →
      allowed later request ∧ ∀ answer after, service.serve later request answer after →
        invariant after → Obeys invariant allowed post (rest answer) after

namespace Obeys

variable {service} {invariant : World → Prop} {allowed : World → Request → Prop} {world : World}

theorem drifted {post : Value → World → Prop} {program : Program Request Answer Failure Value}
    {later : World} (obeys : service.Obeys invariant allowed post program world)
    (drifts : service.drift world later) :
    service.Obeys invariant allowed post program later := by
  cases program with
  | done value =>
    intro last further
    exact obeys last (service.drift_trans _ _ _ drifts further)
  | fail failure => trivial
  | ask request rest =>
    intro last further
    exact obeys last (service.drift_trans _ _ _ drifts further)

theorem done {post : Value → World → Prop} {value : Value}
    (holds : ∀ later, service.drift world later → invariant later → post value later) :
    service.Obeys invariant allowed post
      (.done value : Program Request Answer Failure Value) world :=
  holds

/-- Sequencing: the second part starts in a world where the first part's value was returned. -/
theorem seq {program : Program Request Answer Failure Value}
    {next : Value → Program Request Answer Failure Result}
    {middle : Value → World → Prop} {post : Result → World → Prop} (holds : invariant world)
    (before : service.Obeys invariant allowed middle program world)
    (after : ∀ value later, invariant later → middle value later →
      service.Obeys invariant allowed post (next value) later) :
    service.Obeys invariant allowed post (program >>= next) world := by
  induction program generalizing world with
  | done value => exact after value world holds (before world (service.drift_refl world) holds)
  | fail failure => trivial
  | ask request rest inductionHypothesis =>
    intro later drifts kept
    obtain ⟨asks, answered⟩ := before later drifts kept
    exact ⟨asks, fun answer last served still =>
      inductionHypothesis answer still (answered answer last served still)⟩

/-- A computation that asks nothing, first in a sequence. -/
theorem lift_seq {computation : Except Failure Value}
    {next : Value → Program Request Answer Failure Result} {post : Result → World → Prop}
    (after : ∀ value, computation = .ok value →
      service.Obeys invariant allowed post (next value) world) :
    service.Obeys invariant allowed post (Program.lift computation >>= next) world := by
  cases computation with
  | ok value => exact after value rfl
  | error failure => trivial

/-- A request, first in a sequence. -/
theorem query_seq {request : Request} {read : Answer request → Except Failure Value}
    {next : Value → Program Request Answer Failure Result} {post : Result → World → Prop}
    (asks : ∀ later, service.drift world later → invariant later → allowed later request)
    (after : ∀ later answer last value, service.drift world later → invariant later →
      service.serve later request answer last → invariant last → read answer = .ok value →
      service.Obeys invariant allowed post (next value) last) :
    service.Obeys invariant allowed post (Program.query request read >>= next) world := by
  intro later drifts holds
  refine ⟨asks later drifts holds, fun answer last served kept => ?_⟩
  show service.Obeys invariant allowed post ((Program.lift (read answer)).bind next) last
  cases reading : read answer with
  | ok value => exact after later answer last value drifts holds served kept reading
  | error failure => trivial

/-- A caught program, first in a sequence. -/
theorem attempt_seq {program : Program Request Answer Failure Value}
    {next : Except Failure Value → Program Request Answer Other Result}
    {middle : Value → World → Prop} {post : Result → World → Prop} (holds : invariant world)
    (before : service.Obeys invariant allowed middle program world)
    (after : ∀ ending later, invariant later → (∀ value, ending = .ok value → middle value later) →
      service.Obeys invariant allowed post (next ending) later) :
    service.Obeys invariant allowed post (Program.attempt program >>= next) world := by
  induction program generalizing world with
  | done value =>
    refine after (.ok value) world holds fun other same => ?_
    cases same
    exact before world (service.drift_refl world) holds
  | fail failure =>
    refine after (.error failure) world holds fun value impossible => ?_
    cases impossible
  | ask request rest inductionHypothesis =>
    intro later drifts kept
    obtain ⟨asks, answered⟩ := before later drifts kept
    exact ⟨asks, fun answer last served still =>
      inductionHypothesis answer still (answered answer last served still)⟩

/-- Fewer answers leave a program as obedient. -/
theorem restrict {post : Value → World → Prop} {program : Program Request Answer Failure Value}
    (meets : World → (request : Request) → Answer request → Prop)
    (obeys : service.Obeys invariant allowed post program world) :
    (service.restrict meets).Obeys invariant allowed post program world := by
  induction program generalizing world with
  | done value => exact obeys
  | fail failure => trivial
  | ask request rest inductionHypothesis =>
    intro later drifts kept
    obtain ⟨asks, answered⟩ := obeys later drifts kept
    exact ⟨asks, fun answer after served still =>
      inductionHypothesis answer (answered answer after served.1 still)⟩

end Obeys

/-! ### Invariants of runs -/

section Runs

variable {service} {started : Program Request Answer Failure Value → Prop}
  {admits : World → Program Request Answer Failure Value → Prop}
  {invariant : World → Prop} {allowed : World → Request → Prop} {initial : World}

/-- What the world keeps while it drifts and while it serves what is allowed holds throughout every
run of programs that ask only that, and everything such a run is about to ask is allowed. -/
theorem invariant_admitted
    (drifts : ∀ world later, invariant world → service.drift world later → invariant later)
    (serves : ∀ world request answer after, invariant world → allowed world request →
      service.serve world request answer after → invariant after)
    (obeying : ∀ program world, admits world program → invariant world →
      service.Obeys invariant allowed (fun _ _ => True) program world)
    (holds : invariant initial) {configuration : Configuration Request Answer World Failure Value}
    (reached : service.Admits admits initial configuration) :
    invariant configuration.1 ∧ ∀ program, configuration.2 = some program →
      service.Obeys invariant allowed (fun _ _ => True) program configuration.1 := by
  induction reached with
  | refl => exact ⟨holds, fun program impossible => absurd impossible (Option.some_ne_none _).symm⟩
  | drift before drifting inductionHypothesis =>
    obtain ⟨kept, obeys⟩ := inductionHypothesis
    exact ⟨drifts _ _ kept drifting,
      fun program running => (obeys program running).drifted drifting⟩
  | start before one inductionHypothesis =>
    refine ⟨inductionHypothesis.1, fun program running => ?_⟩
    obtain rfl := Option.some.inj running
    exact obeying _ _ one inductionHypothesis.1
  | answer before served inductionHypothesis =>
    obtain ⟨kept, obeys⟩ := inductionHypothesis
    obtain ⟨asks, answered⟩ := obeys _ rfl _ (service.drift_refl _) kept
    have still := serves _ _ _ _ kept asks served
    refine ⟨still, fun program running => ?_⟩
    obtain rfl := Option.some.inj running
    exact answered _ _ served still
  | stop before inductionHypothesis =>
    exact ⟨inductionHypothesis.1,
      fun program impossible => absurd impossible (Option.some_ne_none _).symm⟩

theorem invariant_reached
    (drifts : ∀ world later, invariant world → service.drift world later → invariant later)
    (serves : ∀ world request answer after, invariant world → allowed world request →
      service.serve world request answer after → invariant after)
    (obeying : ∀ program, started program → ∀ world, invariant world →
      service.Obeys invariant allowed (fun _ _ => True) program world)
    (holds : invariant initial) {configuration : Configuration Request Answer World Failure Value}
    (reached : service.Reaches started initial configuration) :
    invariant configuration.1 ∧ ∀ program, configuration.2 = some program →
      service.Obeys invariant allowed (fun _ _ => True) program configuration.1 :=
  invariant_admitted drifts serves (fun program world one kept => obeying program one world kept)
    holds (admits_of_reaches reached)

theorem allowed_of_pending {world : World} {program : Program Request Answer Failure Value}
    {post : Value → World → Prop} {request : Request} (holds : invariant world)
    (obeys : service.Obeys invariant allowed post program world)
    (asking : pending program = some request) : allowed world request := by
  cases program with
  | done value => cases asking
  | fail failure => cases asking
  | ask asked rest =>
    obtain rfl := Option.some.inj asking
    exact (obeys world (service.drift_refl world) holds).1

/-- A run of programs that ask only what is allowed is a run of every world that would have drifted
and served in the same way. -/
theorem reaches_seen {Seen : Type} {other : Service Request Answer Seen} (view : World → Seen)
    (drifts : ∀ world later, invariant world → service.drift world later →
      invariant later ∧ other.drift (view world) (view later))
    (serves : ∀ world request answer after, invariant world → allowed world request →
      service.serve world request answer after →
        invariant after ∧ other.serve (view world) request answer (view after))
    (obeying : ∀ program, started program → ∀ world, invariant world →
      service.Obeys invariant allowed (fun _ _ => True) program world)
    (holds : invariant initial) {configuration : Configuration Request Answer World Failure Value}
    (reached : service.Reaches started initial configuration) :
    other.Reaches started (view initial) (view configuration.1, configuration.2) := by
  induction reached with
  | refl => exact .refl
  | tail before move inductionHypothesis =>
    obtain ⟨kept, obeys⟩ := invariant_reached
      (fun world later kept drifting => (drifts world later kept drifting).1)
      (fun world request answer after kept asks served =>
        (serves world request answer after kept asks served).1) obeying holds before
    cases move with
    | drift drifting => exact inductionHypothesis.tail (.drift (drifts _ _ kept drifting).2)
    | start one => exact inductionHypothesis.tail (.start one)
    | answer served =>
      have asks := (obeys _ rfl _ (service.drift_refl _) kept).1
      exact inductionHypothesis.tail (.answer (serves _ _ _ _ kept asks served).2)
    | stop => exact inductionHypothesis.tail .stop

end Runs

/-! ### Playing a run -/

/-- The world and the rest of the program where it is about to ask something to stop at, or ends. -/
def play (respond : World → (request : Request) → Answer request × World) (stops : Request → Bool) :
    Program Request Answer Failure Value → World →
      World × Program Request Answer Failure Value
  | .done value, world => (world, .done value)
  | .fail failure, world => (world, .fail failure)
  | .ask request rest, world =>
    if stops request then (world, .ask request rest)
    else play respond stops (rest (respond world request).1) (respond world request).2

/-- Playing a program goes on with a run. -/
theorem admits_play {admits : World → Program Request Answer Failure Value → Prop}
    {initial : World} {respond : World → (request : Request) → Answer request × World}
    {stops : Request → Bool}
    (serving : ∀ world request, service.serve world request (respond world request).1
      (respond world request).2) (program : Program Request Answer Failure Value) (world : World)
    (before : service.Admits admits initial (world, some program)) :
    service.Admits admits initial
      ((play respond stops program world).1, some (play respond stops program world).2) := by
  induction program generalizing world with
  | done value => exact before
  | fail failure => exact before
  | ask request rest inductionHypothesis =>
    unfold play
    split
    · exact before
    · exact inductionHypothesis _ _ (before.answer (serving world request))

/-- What is played with answers the service may give is part of a run, also when it may give them
only in the worlds the play keeps to. -/
theorem moves_play_kept {started : Program Request Answer Failure Value → Prop}
    {respond : World → (request : Request) → Answer request × World} {stops : Request → Bool}
    {keeps : World → Prop}
    (serving : ∀ world request, keeps world → keeps (respond world request).2 ∧
      service.serve world request (respond world request).1 (respond world request).2)
    (program : Program Request Answer Failure Value) (world : World) (kept : keeps world) :
    Relation.ReflTransGen (service.Move started) (world, some program)
      ((play respond stops program world).1, some (play respond stops program world).2) := by
  induction program generalizing world with
  | done value => exact .refl
  | fail failure => exact .refl
  | ask request rest inductionHypothesis =>
    unfold play
    split
    · exact .refl
    · obtain ⟨still, serves⟩ := serving world request kept
      exact .head (.answer serves) (inductionHypothesis _ _ still)

theorem moves_play {started : Program Request Answer Failure Value → Prop}
    {respond : World → (request : Request) → Answer request × World} {stops : Request → Bool}
    (serving : ∀ world request, service.serve world request (respond world request).1
      (respond world request).2) (program : Program Request Answer Failure Value) (world : World) :
    Relation.ReflTransGen (service.Move started) (world, some program)
      ((play respond stops program world).1, some (play respond stops program world).2) := by
  have serves : ∀ world request, (fun _ : World => True) world →
      (fun _ : World => True) (respond world request).2 ∧
        service.serve world request (respond world request).1 (respond world request).2 :=
    fun world request _ => ⟨trivial, serving world request⟩
  exact moves_play_kept service serves program world trivial

section Steps

variable {service} {admits : World → Program Request Answer Failure Value → Prop}
  {initial world : World}

/-- A computation that returns, first in a sequence that runs. -/
theorem Admits.lift {computation : Except Failure Other}
    {next : Other → Program Request Answer Failure Value} {value : Other}
    (before : service.Admits admits initial (world, some (Program.lift computation >>= next)))
    (returned : computation = .ok value) :
    service.Admits admits initial (world, some (next value)) := by
  subst returned
  exact before

/-- A request that is answered, first in a sequence that runs. -/
theorem Admits.query {request : Request} {read : Answer request → Except Failure Other}
    {next : Other → Program Request Answer Failure Value} {value : Other}
    {answer : Answer request} {after : World}
    (before : service.Admits admits initial
      (world, some (Program.query request read >>= next)))
    (served : service.serve world request answer after) (reading : read answer = .ok value) :
    service.Admits admits initial (after, some (next value)) :=
  (before.answer served : service.Admits admits initial
    (after, some (Program.lift (read answer) >>= next))).lift reading

end Steps

end Service

end Library

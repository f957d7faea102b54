/-
This file records runs of tasks: which task asked what, and what it was answered.

A condition on a run can then speak of the order of its steps, such as that nothing of
some kind happened since a task last read something. The rule for invariants lets the
invariant speak of the record too, beside the world and the ghost states of the tasks.
-/

import OpenSocial.Library.Tasks

namespace Library

/-- A request that was answered, and the task that made it. -/
structure Event (Request : Type) (Answer : Request → Type) where
  task : ℕ
  request : Request
  answer : Answer request

/-- What was asked so far, the last first. -/
abbrev History (Request : Type) (Answer : Request → Type) := List (Event Request Answer)

namespace History

variable {Request : Type} {Answer : Request → Type} {history : History Request Answer}
  {task : ℕ} {marks : Request → Bool}

/-- What happened since a task last asked a request that is marked. -/
def since (history : History Request Answer) (task : ℕ) (marks : Request → Bool) :
    History Request Answer :=
  history.takeWhile fun event => !(event.task == task && marks event.request)

theorem since_cons {event : Event Request Answer}
    (other : event.task ≠ task ∨ marks event.request = false) :
    since (event :: history) task marks = event :: since history task marks := by
  unfold since
  rw [List.takeWhile_cons]
  rcases other with foreign | unmarked
  · rw [beq_false_of_ne foreign]
    rfl
  · rw [unmarked, Bool.and_false]
    rfl

end History

namespace Runtime

variable {Request : Type} {Answer : Request → Type} {World Failure Value Ghost : Type}

/-! ### Recorded runs -/

section Recording

variable (runtime : Runtime Request Answer World)
  (meets : History Request Answer → Event Request Answer → Prop)

/-- The runtime of a task, which records what the task is answered; the answer meets a condition on
what happened before. -/
def recording (task : ℕ) : Runtime Request Answer (World × History Request Answer) where
  awaits := runtime.awaits
  serve before request answer after :=
    runtime.serve before.1 request answer after.1 ∧ meets before.2 ⟨task, request, answer⟩ ∧
      after.2 = ⟨task, request, answer⟩ :: before.2
  drift before after := runtime.drift before.1 after.1 ∧ after.2 = before.2

/-- A run from this world, with what happened in it. -/
def Records (started : Program Request Answer Failure Value → Prop) (initial : World)
    (after : World × History Request Answer) (tasks : List (Program Request Answer Failure Value)) :
    Prop :=
  ReachesEach (runtime.recording meets) (runtime.recording meets 0).drift started
    ((initial, []), []) (after, tasks)

end Recording

section Invariants

variable {runtime : Runtime Request Answer World}
  {meets : History Request Answer → Event Request Answer → Prop}
  {started : Program Request Answer Failure Value → Prop}
  {protocol : Protocol Request Answer Ghost}
  {invariant : World → History Request Answer → List Ghost → Prop}

/-- Throughout a recorded run of programs that follow the protocol, the world, the record and the
ghost states of the tasks keep their invariant. -/
theorem invariant_records
    (drifts : ∀ world later history ghosts, invariant world history ghosts →
      runtime.drift world later → invariant later history ghosts)
    (serves : ∀ index world history ghosts ghost request answer after,
      invariant world history ghosts → ghosts[index]? = some ghost → protocol.asks ghost request →
      meets history ⟨index, request, answer⟩ → runtime.serve world request answer after →
      protocol.gets ghost request answer ∧
        invariant after (⟨index, request, answer⟩ :: history)
          (ghosts.set index (protocol.next ghost request answer)))
    (starts : ∀ program world history ghosts, started program → invariant world history ghosts →
      ∃ ghost, protocol.Follows (fun _ _ => True) program ghost ∧
        invariant world history (ghosts ++ [ghost]))
    {initial : World} {after : World × History Request Answer}
    {tasks : List (Program Request Answer Failure Value)} (holds : invariant initial [] [])
    (reached : runtime.Records meets started initial after tasks) :
    ∃ ghosts, invariant after.1 after.2 ghosts ∧ Standing protocol tasks ghosts := by
  let joint : World × History Request Answer → List Ghost → Prop :=
    fun both ghosts => invariant both.1 both.2 ghosts
  have nothing : joint (initial, []) [] := holds
  have standing : Standing protocol ([] : List (Program Request Answer Failure Value)) [] := .nil
  refine invariant_reachesEach ?_ ?_ ?_ nothing standing reached
  · rintro ⟨world, history⟩ ⟨later, recorded⟩ ghosts kept ⟨drifting, rfl⟩
    exact drifts world later _ ghosts kept drifting
  · rintro index ⟨world, history⟩ ghosts ghost request answer ⟨after, recorded⟩ kept found asks
      ⟨served, met, rfl⟩
    exact serves index world history ghosts ghost request answer after kept found asks met served
  · rintro program ⟨world, history⟩ ghosts one kept
    exact starts program world history ghosts one kept

end Invariants

/-! ### Playing a recorded run -/

section Play

variable (act : ℕ → History Request Answer → World → (request : Request) → Answer request × World)

/-- Answer a task, and record it. -/
def recorded (task : ℕ) (before : World × History Request Answer) (request : Request) :
    Answer request × (World × History Request Answer) :=
  let (answer, after) := act task before.2 before.1 request
  (answer, (after, ⟨task, request, answer⟩ :: before.2))

/-- A program starts, or the task at an index goes on. -/
def stepTurn : Program Request Answer Failure Value ⊕ ℕ →
    Turn Request Answer (World × History Request Answer) Failure Value
  | .inl program => .start program
  | .inr index => .resume index (recorded act index)

/-- The world, the record and the tasks after some steps. -/
def playRecorded (awaits : Request → Bool) (initial : World)
    (steps : List (Program Request Answer Failure Value ⊕ ℕ)) :
    Configuration Request Answer (World × History Request Answer) Failure Value :=
  playEach awaits (recorded act) ((initial, []), []) (steps.map (stepTurn act))

variable {act} {runtime : Runtime Request Answer World}
  {meets : History Request Answer → Event Request Answer → Prop}
  {started : Program Request Answer Failure Value → Prop}
  {permit : ℕ → World × History Request Answer → Request → Bool}

/-- What is played is a recorded run, if what is answered at once is permitted and everything else
meets the condition. -/
theorem records_playRecorded
    (serving : ∀ task history world request,
      runtime.serve world request (act task history world request).1
        (act task history world request).2)
    (met : ∀ task history world request,
      runtime.awaits request = true ∨ permit task (world, history) request = true →
        meets history ⟨task, request, (act task history world request).1⟩)
    {initial : World} {steps : List (Program Request Answer Failure Value ⊕ ℕ)}
    (starts : ∀ program, .inl program ∈ steps → started program)
    (permitted : permitsEach runtime.awaits (recorded act) permit ((initial, []), [])
      (steps.map (stepTurn act)) = true) :
    runtime.Records meets started initial (playRecorded act runtime.awaits initial steps).1
      (playRecorded act runtime.awaits initial steps).2 := by
  have awaiting : ∀ index, (runtime.recording meets index).awaits = runtime.awaits := fun _ => rfl
  have atOnce : ∀ index world request, runtime.awaits request = false →
      permit index world request = true → (runtime.recording meets index).serve world request
        (recorded act index world request).1 (recorded act index world request).2 :=
    fun index world request _ allowed => ⟨serving index world.2 world.1 request,
      met index world.2 world.1 request (.inr allowed), rfl⟩
  refine reachesEach_permitted awaiting atOnce _ (fun turn member => ?_) _ permitted
  obtain ⟨step, listed, rfl⟩ := List.mem_map.mp member
  cases step with
  | inl program => exact starts program listed
  | inr index =>
    intro world request waits
    exact ⟨serving index world.2 world.1 request,
      met index world.2 world.1 request (.inl waits), rfl⟩

end Play

end Runtime

end Library

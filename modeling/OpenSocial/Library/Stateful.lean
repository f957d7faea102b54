/-
This file gives rules for programs that read and change a state and may fail; what
a program changed before it failed stays changed.

`Leads program state post` says that the program, run from the state, comes to an
answer or a failure and to a state that satisfy `post`. There is one rule for each
way a program is put together, so a property of a whole program is proved along
its text.
-/

import Mathlib

namespace Library

/-- A program on a state that may fail. -/
abbrev Stateful (State Failure : Type) := ExceptT Failure (StateM State)

namespace Stateful

variable {State Failure Value Result : Type}

/-- What the program comes to from a state satisfies `post`. -/
def Leads (program : Stateful State Failure Value) (state : State)
    (post : Except Failure Value → State → Prop) : Prop :=
  post (program state).1 (program state).2

/-- A computation that has no state. -/
def lift (computation : Except Failure Value) : Stateful State Failure Value :=
  fun state => (computation, state)

/-- Run a program, and change the state if it fails. -/
def onFailure (program : Stateful State Failure Value) (change : Failure → State → State) :
    Stateful State Failure Value := fun state =>
  match program state with
  | (.ok value, after) => (.ok value, after)
  | (.error failure, after) => (.error failure, change failure after)

section Bind

variable {first : Stateful State Failure Value} {rest : Value → Stateful State Failure Result}
variable {state after : State}

theorem bind_answered {value : Value} (answered : first state = (.ok value, after)) :
    (first >>= rest) state = rest value after := by
  show (ExceptT.bind first rest) state = _
  simp only [ExceptT.bind, ExceptT.mk, bind, StateT.bind, answered, ExceptT.bindCont]

theorem bind_failed {failure : Failure} (failed : first state = (.error failure, after)) :
    (first >>= rest) state = (.error failure, after) := by
  show (ExceptT.bind first rest) state = _
  simp only [ExceptT.bind, ExceptT.mk, bind, StateT.bind, failed, ExceptT.bindCont]
  rfl

end Bind

namespace Leads

variable {state : State}

theorem ret {value : Value} {post : Except Failure Value → State → Prop}
    (holds : post (.ok value) state) :
    Leads (pure value : Stateful State Failure Value) state post :=
  holds

theorem refuse {failure : Failure} {post : Except Failure Value → State → Prop}
    (holds : post (.error failure) state) :
    Leads (throw failure : Stateful State Failure Value) state post :=
  holds

theorem lift {computation : Except Failure Value} {post : Except Failure Value → State → Prop}
    (holds : post computation state) :
    Leads (Stateful.lift computation) state post :=
  holds

theorem read {post : Except Failure State → State → Prop} (holds : post (.ok state) state) :
    Leads (get : Stateful State Failure State) state post :=
  holds

theorem change {effect : State → State} {post : Except Failure Unit → State → Prop}
    (holds : post (.ok ()) (effect state)) :
    Leads (modify effect : Stateful State Failure Unit) state post :=
  holds

/-- Sequencing: the rest is proved from every state in which the first part may answer. -/
theorem seq {first : Stateful State Failure Value} {rest : Value → Stateful State Failure Result}
    {middle : Except Failure Value → State → Prop} {post : Except Failure Result → State → Prop}
    (before : Leads first state middle)
    (failed : ∀ failure after, middle (.error failure) after → post (.error failure) after)
    (answered : ∀ value after, middle (.ok value) after → Leads (rest value) after post) :
    Leads (first >>= rest) state post := by
  unfold Leads at before ⊢
  cases outcome : first state with
  | mk result after =>
    rw [outcome] at before
    cases result with
    | ok value =>
      rw [bind_answered outcome]
      exact answered value after before
    | error failure =>
      rw [bind_failed outcome]
      exact failed failure after before

/-- A program that changes the state when it fails. -/
theorem caught {program : Stateful State Failure Value} {change : Failure → State → State}
    {post : Except Failure Value → State → Prop}
    (before : Leads program state fun result after =>
      (∀ value, result = .ok value → post (.ok value) after) ∧
        ∀ failure, result = .error failure → post (.error failure) (change failure after)) :
    Leads (onFailure program change) state post := by
  unfold Leads onFailure at *
  cases outcome : program state with
  | mk result after =>
    rw [outcome] at before
    cases result with
    | ok value => exact before.1 value rfl
    | error failure => exact before.2 failure rfl

theorem weaken {program : Stateful State Failure Value}
    {strong weak : Except Failure Value → State → Prop} (holds : Leads program state strong)
    (implies : ∀ result after, strong result after → weak result after) :
    Leads program state weak :=
  implies _ _ holds

end Leads

end Stateful

end Library

/-
This file develops records of two sides that are reported on independently.

A report moves one side and reads no other: it may contradict what the side
already knows, tell it nothing, or give it new facts. The record's status is
derived from both sides after each new fact, except that a contradiction gives a
status that nothing leaves. Reports on different sides then commute: the status is
the same in either order, and so is everything both sides know wherever no
report contradicted.
-/

import Mathlib.Data.Set.Basic

namespace Library

/-- What a report makes of the side it is about. -/
inductive Move (Side : Type) where
  | contradicts
  | keeps
  | becomes (side : Side)

/-- Two sides and the status they are in together. -/
@[ext]
structure Sides (Status First Second : Type) where
  status : Status
  first : First
  second : Second

namespace Sides

variable {Status First Second : Type} [DecidableEq Status]
variable (contradicted : Status) (derive : First → Second → Status)

/-- A report on the first side. -/
def moveFirst (move : First → Move First) (sides : Sides Status First Second) :
    Sides Status First Second :=
  if sides.status = contradicted then sides
  else match move sides.first with
    | .contradicts => { sides with status := contradicted }
    | .keeps => sides
    | .becomes first => { sides with first := first, status := derive first sides.second }

/-- A report on the second side. -/
def moveSecond (move : Second → Move Second) (sides : Sides Status First Second) :
    Sides Status First Second :=
  if sides.status = contradicted then sides
  else match move sides.second with
    | .contradicts => { sides with status := contradicted }
    | .keeps => sides
    | .becomes second => { sides with second := second, status := derive sides.first second }

variable {contradicted} {derive}
variable {status : Status} {first : First} {second : Second}
variable {onFirst : First → Move First} {onSecond : Second → Move Second}

theorem moveFirst_contradicted :
    moveFirst contradicted derive onFirst ⟨contradicted, first, second⟩ =
      ⟨contradicted, first, second⟩ :=
  if_pos rfl

theorem moveSecond_contradicted :
    moveSecond contradicted derive onSecond ⟨contradicted, first, second⟩ =
      ⟨contradicted, first, second⟩ :=
  if_pos rfl

theorem moveFirst_contradicts (moved : onFirst first = .contradicts)
    (settled : status ≠ contradicted) :
    moveFirst contradicted derive onFirst ⟨status, first, second⟩ =
      ⟨contradicted, first, second⟩ := by
  rw [moveFirst, if_neg settled, moved]

theorem moveSecond_contradicts (moved : onSecond second = .contradicts)
    (settled : status ≠ contradicted) :
    moveSecond contradicted derive onSecond ⟨status, first, second⟩ =
      ⟨contradicted, first, second⟩ := by
  rw [moveSecond, if_neg settled, moved]

theorem moveFirst_keeps (moved : onFirst first = .keeps) :
    moveFirst contradicted derive onFirst ⟨status, first, second⟩ = ⟨status, first, second⟩ := by
  rw [moveFirst, moved]
  exact ite_self _

theorem moveSecond_keeps (moved : onSecond second = .keeps) :
    moveSecond contradicted derive onSecond ⟨status, first, second⟩ =
      ⟨status, first, second⟩ := by
  rw [moveSecond, moved]
  exact ite_self _

theorem moveFirst_becomes {fact : First} (moved : onFirst first = .becomes fact)
    (settled : status ≠ contradicted) :
    moveFirst contradicted derive onFirst ⟨status, first, second⟩ =
      ⟨derive fact second, fact, second⟩ := by
  rw [moveFirst, if_neg settled, moved]

theorem moveSecond_becomes {fact : Second} (moved : onSecond second = .becomes fact)
    (settled : status ≠ contradicted) :
    moveSecond contradicted derive onSecond ⟨status, first, second⟩ =
      ⟨derive first fact, first, fact⟩ := by
  rw [moveSecond, if_neg settled, moved]

/-- A settled record ends in a contradiction only by one. -/
theorem contradicts_of_moveFirst (settles : ∀ first second, derive first second ≠ contradicted)
    {sides : Sides Status First Second} (settled : sides.status ≠ contradicted)
    (ends : (moveFirst contradicted derive onFirst sides).status = contradicted) :
    onFirst sides.first = .contradicts := by
  rw [moveFirst, if_neg settled] at ends
  cases moved : onFirst sides.first with
  | contradicts => rfl
  | keeps =>
    rw [moved] at ends
    exact absurd ends settled
  | becomes fact =>
    rw [moved] at ends
    exact absurd ends (settles _ _)

theorem contradicts_of_moveSecond (settles : ∀ first second, derive first second ≠ contradicted)
    {sides : Sides Status First Second} (settled : sides.status ≠ contradicted)
    (ends : (moveSecond contradicted derive onSecond sides).status = contradicted) :
    onSecond sides.second = .contradicts := by
  rw [moveSecond, if_neg settled] at ends
  cases moved : onSecond sides.second with
  | contradicts => rfl
  | keeps =>
    rw [moved] at ends
    exact absurd ends settled
  | becomes fact =>
    rw [moved] at ends
    exact absurd ends (settles _ _)

/-- Two records that agree in their status, and in everything while nothing contradicted. -/
def Agree (contradicted : Status) (left right : Sides Status First Second) : Prop :=
  left.status = right.status ∧ (left.status ≠ contradicted → left = right)

omit [DecidableEq Status] in
theorem Agree.of_eq {left right : Sides Status First Second} (same : left = right) :
    Agree contradicted left right :=
  ⟨congrArg Sides.status same, fun _ => same⟩

omit [DecidableEq Status] in
theorem Agree.of_contradicted {left right : Sides Status First Second}
    (leftEnd : left.status = contradicted) (rightEnd : right.status = contradicted) :
    Agree contradicted left right :=
  ⟨leftEnd.trans rightEnd.symm, fun settled => absurd leftEnd settled⟩

/-- Reports on different sides commute. -/
theorem move_comm (settles : ∀ first second, derive first second ≠ contradicted)
    (sides : Sides Status First Second) (onFirst : First → Move First)
    (onSecond : Second → Move Second) :
    Agree contradicted
      (moveSecond contradicted derive onSecond (moveFirst contradicted derive onFirst sides))
      (moveFirst contradicted derive onFirst
        (moveSecond contradicted derive onSecond sides)) := by
  obtain ⟨status, first, second⟩ := sides
  by_cases settled : status = contradicted
  · subst settled
    refine .of_eq ?_
    rw [moveFirst_contradicted, moveSecond_contradicted, moveFirst_contradicted]
  cases firstMove : onFirst first with
  | contradicts =>
    rw [moveFirst_contradicts firstMove settled, moveSecond_contradicted]
    refine .of_contradicted rfl ?_
    cases secondMove : onSecond second with
    | contradicts =>
      rw [moveSecond_contradicts secondMove settled, moveFirst_contradicted]
    | keeps =>
      rw [moveSecond_keeps secondMove, moveFirst_contradicts firstMove settled]
    | becomes known =>
      rw [moveSecond_becomes secondMove settled, moveFirst_contradicts firstMove (settles _ _)]
  | keeps =>
    refine .of_eq ?_
    rw [moveFirst_keeps firstMove]
    -- whatever the second side learns, the first side still has nothing to tell
    cases secondMove : onSecond second with
    | contradicts =>
      rw [moveSecond_contradicts secondMove settled, moveFirst_keeps firstMove]
    | keeps =>
      rw [moveSecond_keeps secondMove, moveFirst_keeps firstMove]
    | becomes known =>
      rw [moveSecond_becomes secondMove settled, moveFirst_keeps firstMove]
  | becomes fact =>
    rw [moveFirst_becomes firstMove settled]
    cases secondMove : onSecond second with
    | contradicts =>
      rw [moveSecond_contradicts secondMove settled, moveFirst_contradicted,
        moveSecond_contradicts secondMove (settles _ _)]
      exact .of_contradicted rfl rfl
    | keeps =>
      refine .of_eq ?_
      rw [moveSecond_keeps secondMove, moveSecond_keeps secondMove,
        moveFirst_becomes firstMove settled]
    | becomes known =>
      refine .of_eq ?_
      rw [moveSecond_becomes secondMove settled, moveSecond_becomes secondMove (settles _ _),
        moveFirst_becomes firstMove (settles _ _)]

end Sides

end Library

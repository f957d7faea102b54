/-
This file gives pre- and postcondition rules for computations that either answer
or fail.

`Meets allowed computation post` says that the computation fails only in allowed
ways and that whatever it answers satisfies the postcondition. A program written
as a sequence of binds is proved by one application of the bind rule per step,
so showing that some kind of failure never happens follows the program text.
-/

import Mathlib

namespace Library

variable {Failure Value Result : Type}

/-- The computation fails only in allowed ways, and its answer satisfies `post`. -/
def Meets (allowed : Failure → Prop) (computation : Except Failure Value)
    (post : Value → Prop) : Prop :=
  match computation with
  | .ok value => post value
  | .error failure => allowed failure

namespace Meets

variable {allowed : Failure → Prop}

theorem ok {value : Value} {post : Value → Prop} (holds : post value) :
    Meets allowed (.ok value) post :=
  holds

theorem ret {value : Value} {post : Value → Prop} (holds : post value) :
    Meets allowed (pure value) post :=
  holds

theorem error {failure : Failure} {post : Value → Prop} (permitted : allowed failure) :
    Meets allowed (.error failure) post :=
  permitted

/-- Sequencing: the rest is proved for every answer of the first step. -/
theorem seq {first : Except Failure Value} {rest : Value → Except Failure Result}
    {middle : Value → Prop} {post : Result → Prop} (before : Meets allowed first middle)
    (after : ∀ value, middle value → Meets allowed (rest value) post) :
    Meets allowed (first >>= rest) post := by
  cases first with
  | error failure => exact before
  | ok value => exact after value before

theorem weaken {computation : Except Failure Value} {strong weak : Value → Prop}
    (holds : Meets allowed computation strong) (implies : ∀ value, strong value → weak value) :
    Meets allowed computation weak := by
  cases computation with
  | error failure => exact holds
  | ok value => exact implies value holds

/-- A computation that meets anything may also remember that it answered its answer. -/
theorem remember {computation : Except Failure Value} {post : Value → Prop}
    (holds : Meets allowed computation post) :
    Meets allowed computation fun value => computation = .ok value := by
  cases computation with
  | error failure => exact holds
  | ok value => rfl

theorem branch {condition : Prop} [Decidable condition] {first second : Except Failure Value}
    {post : Value → Prop} (yes : condition → Meets allowed first post)
    (no : ¬condition → Meets allowed second post) :
    Meets allowed (if condition then first else second) post := by
  split
  · next holds => exact yes holds
  · next fails => exact no fails

/-- A failure that is not allowed never happens. -/
theorem ne_error {computation : Except Failure Value} {post : Value → Prop} {failure : Failure}
    (holds : Meets allowed computation post) (forbidden : ¬allowed failure) :
    computation ≠ .error failure := by
  rintro rfl
  exact forbidden holds

end Meets

/-- Renaming failures leaves the answers. -/
theorem mapError_eq_ok {First Second : Type} {change : First → Second}
    {computation : Except First Value} {value : Value} :
    computation.mapError change = .ok value ↔ computation = .ok value := by
  cases computation with
  | error failure => exact ⟨nofun, nofun⟩
  | ok other =>
    exact ⟨fun same => congrArg Except.ok (Except.ok.inj same),
      fun same => congrArg Except.ok (Except.ok.inj same)⟩

/-- Computations that go on alike after one answer show the same. -/
theorem map_bind_congr {Shown : Type} {computation : Except Failure Value}
    {first second : Value → Except Failure Result} {shown : Result → Shown}
    (alike : ∀ value, computation = .ok value →
      (first value).map shown = (second value).map shown) :
    (computation >>= first).map shown = (computation >>= second).map shown := by
  cases answer : computation with
  | error failure => rfl
  | ok value => exact alike value answer

end Library

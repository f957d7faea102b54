/-
This file gives fixed-width unsigned arithmetic on natural numbers, in two
readings: wrapping, which is what a machine word computes, and checked, which
answers nothing where a machine word would wrap, borrow or trap. A program whose
checked run never answers nothing computes the same under both readings.
-/

import Mathlib

namespace Library

namespace Word

/-- Addition as a machine word computes it. -/
def wrapAdd (bits first second : ℕ) : ℕ :=
  (first + second) % 2 ^ bits

theorem wrapAdd_of_lt {bits first second : ℕ} (fits : first + second < 2 ^ bits) :
    wrapAdd bits first second = first + second :=
  Nat.mod_eq_of_lt fits

/-- Addition that answers only when the sum fits the word. -/
def checkedAdd (bits first second : ℕ) : Option ℕ :=
  if first + second < 2 ^ bits then some (first + second) else none

/-- Subtraction that answers only when nothing is borrowed. -/
def checkedSub (first second : ℕ) : Option ℕ :=
  if second ≤ first then some (first - second) else none

/-- Multiplication that answers only when the product fits the word. -/
def checkedMul (bits first second : ℕ) : Option ℕ :=
  if first * second < 2 ^ bits then some (first * second) else none

/-- Division that answers only for a nonzero divisor. -/
def checkedDiv (first second : ℕ) : Option ℕ :=
  if second = 0 then none else some (first / second)

@[simp] theorem checkedAdd_eq_some (bits first second result : ℕ) :
    checkedAdd bits first second = some result ↔
      first + second < 2 ^ bits ∧ first + second = result := by
  unfold checkedAdd
  split
  · next fits => simp [fits]
  · next wraps => simp [wraps]

@[simp] theorem checkedSub_eq_some (first second result : ℕ) :
    checkedSub first second = some result ↔ second ≤ first ∧ first - second = result := by
  unfold checkedSub
  split
  · next enough => simp [enough]
  · next borrows => simp [borrows]

@[simp] theorem checkedMul_eq_some (bits first second result : ℕ) :
    checkedMul bits first second = some result ↔
      first * second < 2 ^ bits ∧ first * second = result := by
  unfold checkedMul
  split
  · next fits => simp [fits]
  · next wraps => simp [wraps]

@[simp] theorem checkedDiv_eq_some (first second result : ℕ) :
    checkedDiv first second = some result ↔ second ≠ 0 ∧ first / second = result := by
  unfold checkedDiv
  split
  · next zero => simp [zero]
  · next nonzero => simp [nonzero]

end Word

end Library

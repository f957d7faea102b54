/-
This file sorts two elements by a comparison, as a program does to name an
unordered pair by one key.

The comparison is asked once. If two elements that it orders both ways, or
neither way, are the same, then the sorted pair does not depend on the order the
two were given in, and it determines them.
-/

import Mathlib

namespace Library

/-- The two elements, the one that comes before the other first. -/
def sortedPair {Element : Type} (before : Element → Element → Bool) (first second : Element) :
    Element × Element :=
  if before first second then (first, second) else (second, first)

namespace SortedPair

variable {Element : Type} {before : Element → Element → Bool}

/-- Elements ordered alike in both directions are the same. -/
def Decides (before : Element → Element → Bool) : Prop :=
  ∀ first second, before first second = before second first → first = second

theorem comm (decides : Decides before) (first second : Element) :
    sortedPair before first second = sortedPair before second first := by
  unfold sortedPair
  cases ahead : before first second with
  | true =>
    cases behind : before second first with
    | true => rw [decides first second (ahead.trans behind.symm)]
    | false => rfl
  | false =>
    cases behind : before second first with
    | true => rfl
    | false => rw [decides first second (ahead.trans behind.symm)]

/-- Sorted pairs are equal exactly when they are of the same two elements. -/
theorem eq_iff (decides : Decides before) (first second third fourth : Element) :
    sortedPair before first second = sortedPair before third fourth ↔
      (first = third ∧ second = fourth) ∨ (first = fourth ∧ second = third) := by
  constructor
  · intro same
    unfold sortedPair at same
    split at same
    · split at same
      · rw [Prod.mk.injEq] at same
        exact .inl same
      · rw [Prod.mk.injEq] at same
        exact .inr same
    · split at same
      · rw [Prod.mk.injEq] at same
        exact .inr ⟨same.2, same.1⟩
      · rw [Prod.mk.injEq] at same
        exact .inl ⟨same.2, same.1⟩
  · rintro (⟨rfl, rfl⟩ | ⟨rfl, rfl⟩)
    · rfl
    · exact comm decides first second

end SortedPair

end Library

/-
This file gives chains of digests, each of them taken of the one before it and of the next
item.

A digest of a chain speaks for all the items before it: two chains come to the same digest
exactly when their items agree, provided that no digest is taken of two different things
at the same place of the two chains.
-/

import Mathlib

namespace Library

section HashChain

variable {Item Digest : Type} (link : Option Digest → Item → Digest)

/-- The digest after the first items; there is none before the first. -/
def digestAfter (items : ℕ → Item) : ℕ → Option Digest
  | 0 => none
  | count + 1 => some (link (digestAfter items count) (items count))

/-- At no place below a count do two chains take one digest of different things. -/
def Separated (items others : ℕ → Item) (count : ℕ) : Prop :=
  ∀ index < count,
    link (digestAfter link items index) (items index) =
        link (digestAfter link others index) (others index) →
      digestAfter link items index = digestAfter link others index ∧ items index = others index

variable {link} {items others : ℕ → Item}

theorem digestAfter_congr {count : ℕ} (same : ∀ index < count, items index = others index) :
    digestAfter link items count = digestAfter link others count := by
  induction count with
  | zero => rfl
  | succ count inductionHypothesis =>
    rw [digestAfter, digestAfter, same count (Nat.lt_succ_self count),
      inductionHypothesis fun index below => same index (Nat.lt_succ_of_lt below)]

theorem same_of_digestAfter {count : ℕ} (separated : Separated link items others count)
    (equal : digestAfter link items count = digestAfter link others count) :
    ∀ index < count, items index = others index := by
  induction count with
  | zero => exact fun index below => absurd below (Nat.not_lt_zero index)
  | succ count inductionHypothesis =>
    obtain ⟨before, last⟩ := separated count (Nat.lt_succ_self count) (Option.some.inj equal)
    have earlier := inductionHypothesis
      (fun index below => separated index (Nat.lt_succ_of_lt below)) before
    intro index below
    rcases Nat.lt_succ_iff_lt_or_eq.mp below with early | rfl
    · exact earlier index early
    · exact last

/-- Two chains come to the same digest exactly when their items agree so far. -/
theorem digestAfter_eq_iff {count : ℕ} (separated : Separated link items others count) :
    digestAfter link items count = digestAfter link others count ↔
      ∀ index < count, items index = others index :=
  ⟨same_of_digestAfter separated, digestAfter_congr⟩

end HashChain

end Library

/-
This file models the listing of the active contracts and proves that it is sorted by
the raw bytes of their names, whatever the order the store answers in. The
comparison of the contracts' helpers is a total order on byte strings: it runs over
the bytes both have, and then the shorter one comes first.
-/

import OpenSocial.Library.LockStep
import OpenSocial.Registry.Contract

namespace OpenSocial.Util

open Library

/-! ### The comparison -/

/-- The loop of `Util.compare` over the bytes both have, with the index and how many are left. -/
def compareFrom (first second : Bytes) : ℕ → ℕ → ℤ
  | 0, _ =>
    if first.length < second.length then -1 else if second.length < first.length then 1 else 0
  | left + 1, index =>
    if first.getD index 0 < second.getD index 0 then -1
    else if second.getD index 0 < first.getD index 0 then 1
    else compareFrom first second left (index + 1)

theorem compareFrom_cons (head other : UInt8) (first second : Bytes) (left index : ℕ) :
    compareFrom (head :: first) (other :: second) left (index + 1) =
      compareFrom first second left index := by
  induction left generalizing index with
  | zero =>
    simp only [compareFrom, List.length_cons, Nat.add_lt_add_iff_right]
  | succ left inductionHypothesis =>
    rw [compareFrom, compareFrom, List.getD_cons_succ, List.getD_cons_succ, inductionHypothesis]

/-- The comparison by the loop is the one by the first bytes. -/
theorem compare_eq_compareFrom (first second : Bytes) :
    compare first second = compareFrom first second (min first.length second.length) 0 := by
  induction first generalizing second with
  | nil =>
    cases second with
    | nil => rfl
    | cons other second => rfl
  | cons head first inductionHypothesis =>
    cases second with
    | nil => rfl
    | cons other second =>
      rw [compare, List.length_cons, List.length_cons, Nat.succ_min_succ, compareFrom,
        List.getD_cons_zero, List.getD_cons_zero, compareFrom_cons, inductionHypothesis]

theorem compare_trans {first second third : Bytes} (left : compare first second < 0)
    (right : compare second third < 0) : compare first third < 0 := by
  induction first generalizing second third with
  | nil =>
    cases third with
    | nil =>
      cases second with
      | nil => exact left
      | cons other second =>
        have wrong : (1 : ℤ) < 0 := right
        exact absurd wrong (by decide)
    | cons last third => exact (by decide : (-1 : ℤ) < 0)
  | cons head first inductionHypothesis =>
    cases second with
    | nil =>
      have wrong : (1 : ℤ) < 0 := left
      exact absurd wrong (by decide)
    | cons other second =>
      cases third with
      | nil =>
        have wrong : (1 : ℤ) < 0 := right
        exact absurd wrong (by decide)
      | cons last third =>
        rw [compare] at left right ⊢
        rcases byte_trichotomy head other with below | rfl | above
        · rcases byte_trichotomy other last with lower | rfl | higher
          · rw [if_pos (UInt8.lt_trans below lower)]
            decide
          · rw [if_pos below]
            decide
          · rw [if_neg (UInt8.lt_asymm higher), if_pos higher] at right
            exact absurd right (by decide)
        · rw [if_neg (UInt8.lt_irrefl head), if_neg (UInt8.lt_irrefl head)] at left
          rcases byte_trichotomy head last with lower | rfl | higher
          · rw [if_pos lower]
            decide
          · rw [if_neg (UInt8.lt_irrefl head), if_neg (UInt8.lt_irrefl head)] at right ⊢
            exact inductionHypothesis left right
          · rw [if_neg (UInt8.lt_asymm higher), if_pos higher] at right
            exact absurd right (by decide)
        · rw [if_neg (UInt8.lt_asymm above), if_pos above] at left
          exact absurd left (by decide)

/-- A total order: antisymmetric and transitive, and zero on equal bytes only. -/
structure TotalOrder (order : Bytes → Bytes → ℤ) : Prop where
  zero : ∀ first second, order first second = 0 ↔ first = second
  antisymm : ∀ first second, order second first = -order first second
  trans : ∀ first second third, order first second ≤ 0 → order second third ≤ 0 →
    order first third ≤ 0

theorem compare_totalOrder : TotalOrder compare where
  zero := compare_eq_zero
  antisymm := compare_swap
  trans := by
    intro first second third left right
    rcases left.lt_or_eq with below | same
    · rcases right.lt_or_eq with lower | equal
      · exact (compare_trans below lower).le
      · rw [(compare_eq_zero second third).mp equal] at left
        exact left
    · rw [(compare_eq_zero first second).mp same]
      exact right

/-- Larger in the byte order. -/
def greater (first second : Bytes) : Bool := 0 < compare first second

theorem greater_iff (first second : Bytes) :
    greater first second = true ↔ compare second first < 0 := by
  unfold greater
  rw [decide_eq_true_eq, compare_swap first second]
  omega

theorem greater_strict : LockStep.Strict greater where
  asymm := by
    intro first second above
    rw [greater_iff] at above
    refine Bool.eq_false_iff.mpr fun also => ?_
    rw [greater_iff, compare_swap] at also
    omega
  trans := by
    intro first second third above higher
    rw [greater_iff] at above higher ⊢
    exact compare_trans higher above
  total := by
    intro first second different
    rw [greater_iff, greater_iff]
    have apart : compare first second ≠ 0 := fun same =>
      different ((compare_eq_zero first second).mp same)
    rw [compare_swap first second]
    omega

end OpenSocial.Util

namespace OpenSocial.Registry

open Library

/-! ### The listing -/

/-- `list_contracts`, of the objects that the store returns for it. -/
def listContracts (objs : List (Bytes × ContractEntry)) : List ContractEntry :=
  (LockStep.sort Util.greater objs).2

/-- Entries with distinct keys are listed with their keys going up, every key with its value; and
the comparison is a total order of byte strings. -/
theorem listContracts_sorted (objs : List (Bytes × ContractEntry))
    (distinct : (objs.map Prod.fst).Nodup) :
    (∃ sorted : List (Bytes × ContractEntry), listContracts objs = sorted.map Prod.snd ∧
      sorted.Perm objs ∧ sorted.Pairwise fun first second =>
        Util.compare first.1 second.1 < 0) ∧ Util.TotalOrder Util.compare := by
  refine ⟨?_, Util.compare_totalOrder⟩
  obtain ⟨sorted, answer, perm, ascending⟩ :=
    LockStep.sort_spec Util.greater_strict objs distinct
  refine ⟨sorted, congrArg Prod.snd answer, perm, ascending.imp fun order => ?_⟩
  exact (Util.greater_iff _ _).mp order

/-- An entry of a contract with this name. -/
def namedEntry (name : String) : ContractEntry :=
  ⟨name, ⟨List.replicate 25 1, rfl⟩, 1, [], .active, 0, "", 0⟩

theorem listContracts_sorted_names :
    ∃ sorted : List (Bytes × ContractEntry),
      listContracts [([112], namedEntry "p"), ([99], namedEntry "c"), ([105], namedEntry "i")] =
        sorted.map Prod.snd ∧
      sorted.Pairwise fun first second => Util.compare first.1 second.1 < 0 := by
  obtain ⟨sorted, answer, _, ascending⟩ := (listContracts_sorted
    [([112], namedEntry "p"), ([99], namedEntry "c"), ([105], namedEntry "i")] (by decide)).1
  exact ⟨sorted, answer, ascending⟩

end OpenSocial.Registry

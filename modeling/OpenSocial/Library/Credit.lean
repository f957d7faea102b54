/-
This file gives the arithmetic of credits that regenerate towards a capacity.

A holder's credits grow pro rata: a full capacity over one period, rounded down
at every settlement and never above the capacity. The exact level is the same
quantity without rounding, and it bounds what any sequence of settlements can
give. Rounding loses the remainder of each settlement, and settling in pieces
agrees with settling once exactly when the remainders add up to less than one
credit or the holder is full anyway. The last section splits credits in
proportion to a holding.
-/

import Mathlib

namespace Library

namespace Credit

/-- Credits after a gap without settlement, rounded down. -/
def refill (capacity period credits gap : ℕ) : ℕ :=
  min capacity (credits + capacity * min gap period / period)

/-- The exact credits after a gap, not rounded. -/
def level (capacity period credits gap : ℕ) : ℚ :=
  min capacity (credits + capacity * gap / period)

section Refill

variable {capacity period : ℕ}

/-- Stopping the gap at one period changes nothing: a whole period already fills. -/
theorem refill_eq (positive : 0 < period) (credits gap : ℕ) :
    refill capacity period credits gap = min capacity (credits + capacity * gap / period) := by
  unfold refill
  rcases le_total gap period with short | long
  · rw [min_eq_left short]
  · have full : capacity * period / period = capacity := Nat.mul_div_cancel capacity positive
    have beyond : capacity ≤ capacity * gap / period := by
      calc capacity = capacity * period / period := full.symm
        _ ≤ capacity * gap / period := Nat.div_le_div_right (Nat.mul_le_mul_left capacity long)
    rw [min_eq_right long, full]
    omega

theorem refill_le (credits gap : ℕ) : refill capacity period credits gap ≤ capacity :=
  min_le_left _ _

/-- Credits never shrink by waiting. -/
theorem le_refill (credits gap : ℕ) (bounded : credits ≤ capacity) :
    credits ≤ refill capacity period credits gap :=
  le_min bounded (Nat.le_add_right _ _)

/-- Refilling is monotone in the capacity and in the credits. -/
theorem refill_mono {smaller : ℕ} (below : smaller ≤ capacity) {credits more : ℕ}
    (fewer : credits ≤ more) (gap : ℕ) :
    refill smaller period credits gap ≤ refill capacity period more gap := by
  unfold refill
  refine min_le_min below (Nat.add_le_add fewer ?_)
  exact Nat.div_le_div_right (Nat.mul_le_mul_right _ below)

end Refill

/-! ### The exact level -/

section Level

variable (capacity period : ℕ)

theorem refill_le_level (positive : 0 < period) (credits gap : ℕ) :
    (refill capacity period credits gap : ℚ) ≤ level capacity period credits gap := by
  rw [refill_eq positive, level, Nat.cast_min, Nat.cast_add]
  refine min_le_min le_rfl (add_le_add le_rfl ?_)
  calc ((capacity * gap / period : ℕ) : ℚ) ≤ ((capacity * gap : ℕ) : ℚ) / period :=
        Nat.cast_div_le
    _ = capacity * gap / period := by rw [Nat.cast_mul]

theorem level_le (credits gap : ℕ) : level capacity period credits gap ≤ capacity :=
  min_le_left _ _

theorem level_nonneg (credits gap : ℕ) : 0 ≤ level capacity period credits gap := by
  unfold level
  positivity

/-- With no gap the level is what is stored. -/
theorem level_zero (credits : ℕ) (bounded : credits ≤ capacity) :
    level capacity period credits 0 = credits := by
  rw [level, Nat.cast_zero, mul_zero, zero_div, add_zero]
  exact min_eq_right (by exact_mod_cast bounded)

/-- Waiting adds at most the capacity pro rata of the time waited. -/
theorem level_wait (credits gap more : ℕ) :
    level capacity period credits (gap + more) ≤
      level capacity period credits gap + capacity * more / period := by
  have gain : (0 : ℚ) ≤ capacity * more / period := by positivity
  have split : (capacity : ℚ) * ((gap + more : ℕ) : ℚ) / period =
      capacity * gap / period + capacity * more / period := by
    rw [Nat.cast_add, mul_add, add_div]
  unfold level
  rw [split, ← add_assoc]
  rcases le_total (capacity : ℚ) (credits + capacity * gap / period) with full | partly
  · rw [min_eq_left full]
    exact (min_le_left _ _).trans (le_add_of_nonneg_right gain)
  · rw [min_eq_right partly]
    exact min_le_right _ _

end Level

/-! ### Settling in pieces -/

section Pieces

variable {capacity period : ℕ}

/-- Credits after settling at the end of each gap in turn. -/
def refillAll (capacity period : ℕ) (credits : ℕ) (gaps : List ℕ) : ℕ :=
  gaps.foldl (refill capacity period) credits

/-- The whole credits the pieces give. -/
def gained (capacity period : ℕ) (gaps : List ℕ) : ℕ :=
  (gaps.map fun gap => capacity * gap / period).sum

/-- The fractions of a credit the pieces discard. -/
def discarded (capacity period : ℕ) (gaps : List ℕ) : ℕ :=
  (gaps.map fun gap => capacity * gap % period).sum

/-- Settling in pieces adds the rounded gains of the pieces, up to the capacity. -/
theorem refillAll_eq (positive : 0 < period) (credits : ℕ) (gaps : List ℕ)
    (bounded : credits ≤ capacity) :
    refillAll capacity period credits gaps = min capacity (credits + gained capacity period gaps) := by
  induction gaps generalizing credits with
  | nil => exact (min_eq_right bounded).symm
  | cons gap rest inductionHypothesis =>
    have step : refillAll capacity period credits (gap :: rest) =
        refillAll capacity period (refill capacity period credits gap) rest := rfl
    have sum : gained capacity period (gap :: rest) =
        capacity * gap / period + gained capacity period rest := by
      rw [gained, List.map_cons, List.sum_cons]
      rfl
    rw [step, inductionHypothesis _ (refill_le credits gap), refill_eq positive, sum]
    omega

/-- The gains of the pieces and their discarded remainders make up the whole. -/
theorem gained_add_discarded (gaps : List ℕ) :
    capacity * gaps.sum =
      period * gained capacity period gaps + discarded capacity period gaps := by
  induction gaps with
  | nil => rfl
  | cons gap rest inductionHypothesis =>
    have divided := Nat.div_add_mod (capacity * gap) period
    simp only [gained, discarded, List.map_cons, List.sum_cons] at inductionHypothesis ⊢
    rw [Nat.mul_add, inductionHypothesis, Nat.mul_add]
    omega

theorem whole_eq_gained_add (positive : 0 < period) (gaps : List ℕ) :
    capacity * gaps.sum / period =
      gained capacity period gaps + discarded capacity period gaps / period := by
  rw [gained_add_discarded, Nat.mul_add_div positive]

/-- The condition under which settling in pieces loses nothing: the discarded fractions make
less than one credit, or the pieces alone already fill the holder. -/
def Lossless (capacity period credits : ℕ) (gaps : List ℕ) : Prop :=
  discarded capacity period gaps < period ∨ capacity ≤ credits + gained capacity period gaps

instance (credits : ℕ) (gaps : List ℕ) : Decidable (Lossless capacity period credits gaps) :=
  inferInstanceAs (Decidable (_ ∨ _))

/-- Settling in pieces agrees with settling once exactly when the pieces lose nothing. -/
theorem refillAll_eq_refill_iff (positive : 0 < period) (credits : ℕ) (gaps : List ℕ)
    (bounded : credits ≤ capacity) :
    refillAll capacity period credits gaps = refill capacity period credits gaps.sum ↔
      Lossless capacity period credits gaps := by
  rw [refillAll_eq positive credits gaps bounded, refill_eq positive, whole_eq_gained_add positive,
    Lossless]
  rcases Nat.lt_or_ge (discarded capacity period gaps) period with small | large
  · rw [Nat.div_eq_of_lt small]
    exact ⟨fun _ => .inl small, fun _ => rfl⟩
  · have lost : 1 ≤ discarded capacity period gaps / period :=
      (Nat.one_le_div_iff positive).mpr large
    constructor
    · intro same
      refine .inr ?_
      omega
    · intro lossless
      have full : capacity ≤ credits + gained capacity period gaps :=
        lossless.resolve_left (Nat.not_lt.mpr large)
      omega

/-- Pieces that span a whole period fill the holder exactly when they lose nothing. -/
theorem refillAll_full_iff (positive : 0 < period) (credits : ℕ) (gaps : List ℕ)
    (bounded : credits ≤ capacity) (whole : period ≤ gaps.sum) :
    refillAll capacity period credits gaps = capacity ↔
      Lossless capacity period credits gaps := by
  have full : refill capacity period credits gaps.sum = capacity := by
    rw [refill_eq positive]
    refine min_eq_left ?_
    calc capacity = capacity * period / period := (Nat.mul_div_cancel capacity positive).symm
      _ ≤ capacity * gaps.sum / period := Nat.div_le_div_right (Nat.mul_le_mul_left capacity whole)
      _ ≤ credits + capacity * gaps.sum / period := Nat.le_add_left _ _
  rw [← refillAll_eq_refill_iff positive credits gaps bounded, full]

/-- The gaps between settlements at the given times, the first one since an earlier time. -/
def gaps (since : ℕ) : List ℕ → List ℕ
  | [] => []
  | time :: rest => (time - since) :: gaps time rest

theorem gaps_concat (since : ℕ) (times : List ℕ) (time : ℕ) :
    gaps since (times ++ [time]) = gaps since times ++ [time - times.getLastD since] := by
  induction times generalizing since with
  | nil => rfl
  | cons head rest inductionHypothesis =>
    rw [List.cons_append, gaps, gaps, inductionHypothesis, List.cons_append, List.getLastD_cons]

/-- The gaps up to a time cover everything since the earlier time. -/
theorem sub_le_gaps_sum (since : ℕ) (times : List ℕ) (time : ℕ) :
    time - since ≤ (gaps since (times ++ [time])).sum := by
  induction times generalizing since with
  | nil => exact le_of_eq (Nat.add_zero _).symm
  | cons head rest inductionHypothesis =>
    have covered := inductionHypothesis head
    rw [List.cons_append, gaps, List.sum_cons]
    omega

/-- The gaps between times in order add up to the time passed. -/
theorem gaps_sum {since : ℕ} {times : List ℕ} {time : ℕ}
    (ordered : (since :: (times ++ [time])).Pairwise (· ≤ ·)) :
    (gaps since (times ++ [time])).sum = time - since := by
  induction times generalizing since with
  | nil => exact Nat.add_zero _
  | cons head rest inductionHypothesis =>
    rw [List.cons_append, List.pairwise_cons] at ordered
    have first : since ≤ head := ordered.1 head List.mem_cons_self
    have last : head ≤ time :=
      (List.pairwise_cons.mp ordered.2).1 time (List.mem_append_right rest List.mem_cons_self)
    rw [List.cons_append, gaps, List.sum_cons, inductionHypothesis ordered.2]
    omega

theorem refillAll_concat (credits : ℕ) (earlier : List ℕ) (gap : ℕ) :
    refillAll capacity period credits (earlier ++ [gap]) =
      refill capacity period (refillAll capacity period credits earlier) gap :=
  List.foldl_concat _ _ _ _

end Pieces

/-! ### Splitting credits in proportion to a holding -/

section Share

variable {credits part holding rate : ℕ}

/-- A part of a holding carries at most all of its credits. -/
theorem share_le (within : part ≤ holding) : credits * part / holding ≤ credits := by
  rcases Nat.eq_zero_or_pos holding with zero | positive
  · rw [zero, Nat.div_zero]
    exact Nat.zero_le _
  · exact Nat.div_le_of_le_mul (by rw [Nat.mul_comm holding]; exact Nat.mul_le_mul_left _ within)

/-- Credits within a rate stay within it on the part that moves. -/
theorem share_within (within : credits ≤ holding * rate) :
    credits * part / holding ≤ part * rate := by
  refine Nat.div_le_of_le_mul ?_
  calc credits * part ≤ holding * rate * part := Nat.mul_le_mul_right part within
    _ = holding * (part * rate) := by ring

/-- Credits within a rate stay within it on the part that stays. -/
theorem rest_within (positive : 0 < holding) (part_le : part ≤ holding)
    (within : credits ≤ holding * rate) :
    credits - credits * part / holding ≤ (holding - part) * rate := by
  obtain ⟨left, rfl⟩ := Nat.exists_eq_add_of_le part_le
  have bound : credits ≤ left * rate + credits * part / (part + left) := by
    by_contra exceeded
    have split : left * rate ≤ credits :=
      (Nat.le_add_right _ _).trans (Nat.lt_of_not_le exceeded).le
    have below : credits * part / (part + left) < credits - left * rate := by omega
    rw [Nat.div_lt_iff_lt_mul positive] at below
    obtain ⟨extra, rfl⟩ := Nat.exists_eq_add_of_le split
    rw [Nat.add_sub_cancel_left] at below
    nlinarith
  rw [Nat.add_sub_cancel_left]
  omega

end Share

end Credit

end Library

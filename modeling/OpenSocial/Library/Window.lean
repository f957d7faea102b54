/-
This file proves what a limit over a sliding window of time bounds.

The limiter keeps the times at which it admitted something. Asked at a time, it forgets
those that are a window or more in the past, and admits unless as many as the limit are
left. If the clock does not run back, then no window of time sees more admissions than
the limit; and whatever the clock does, nothing is refused without as many admissions
that are not yet a window in the past.
-/

import Mathlib

namespace Library.Window

variable {Time : Type} [AddCommGroup Time] [LinearOrder Time]

/-- The times that still count. -/
def recent (window now : Time) (hits : List Time) : List Time :=
  hits.filter fun time => now - time < window

/-- What is kept after one question, and whether it was admitted. -/
def ask (window : Time) (limit : ℕ) (hits : List Time) (now : Time) : List Time × Bool :=
  if limit ≤ (recent window now hits).length then (recent window now hits, false)
  else (recent window now hits ++ [now], true)

section Runs

variable (window : Time) (limit : ℕ)

/-- What is kept after questions at these times, in turn. -/
def keptAfter (hits times : List Time) : List Time :=
  times.foldl (fun kept now => (ask window limit kept now).1) hits

/-- Of questions at these times, in turn, the times of those that are admitted. -/
def admitted : List Time → List Time → List Time
  | _, [] => []
  | hits, now :: later =>
    let rest := admitted (ask window limit hits now).1 later
    if (ask window limit hits now).2 then now :: rest else rest

end Runs

section Bound

variable {window now : Time} {limit : ℕ} {hits times : List Time}

theorem ask_of_full (full : limit ≤ (recent window now hits).length) :
    ask window limit hits now = (recent window now hits, false) := by
  rw [ask, if_pos full]

theorem ask_of_room (room : (recent window now hits).length < limit) :
    ask window limit hits now = (recent window now hits ++ [now], true) := by
  rw [ask, if_neg (not_le.mpr room)]

theorem keptAfter_append (hits earlier later : List Time) :
    keptAfter window limit hits (earlier ++ later) =
      keptAfter window limit (keptAfter window limit hits earlier) later := by
  rw [keptAfter, List.foldl_append, keptAfter, keptAfter]

theorem admitted_cons_full (full : limit ≤ (recent window now hits).length) :
    admitted window limit hits (now :: times) =
      admitted window limit (recent window now hits) times := by
  rw [admitted, ask_of_full full]
  rfl

theorem admitted_cons_room (room : (recent window now hits).length < limit) :
    admitted window limit hits (now :: times) =
      now :: admitted window limit (recent window now hits ++ [now]) times := by
  rw [admitted, ask_of_room room]
  rfl

theorem admitted_append (hits earlier later : List Time) :
    admitted window limit hits (earlier ++ later) =
      admitted window limit hits earlier ++
        admitted window limit (keptAfter window limit hits earlier) later := by
  induction earlier generalizing hits with
  | nil => rfl
  | cons now earlier inductionHypothesis =>
    rw [List.cons_append]
    rcases le_or_gt limit (recent window now hits).length with full | room
    · rw [admitted_cons_full full, admitted_cons_full full, inductionHypothesis,
        keptAfter, keptAfter, List.foldl_cons, ask_of_full full]
    · rw [admitted_cons_room room, admitted_cons_room room, inductionHypothesis,
        List.cons_append, keptAfter, keptAfter, List.foldl_cons, ask_of_room room]

theorem admitted_sublist (hits times : List Time) :
    (admitted window limit hits times).Sublist times := by
  induction times generalizing hits with
  | nil => exact List.Sublist.slnil
  | cons now times inductionHypothesis =>
    rcases le_or_gt limit (recent window now hits).length with full | room
    · rw [admitted_cons_full full]
      exact (inductionHypothesis _).cons now
    · rw [admitted_cons_room room]
      exact (inductionHypothesis _).cons_cons now

/-- What is kept was admitted, unless it was there before. -/
theorem keptAfter_sublist (hits times : List Time) :
    (keptAfter window limit hits times).Sublist (hits ++ admitted window limit hits times) := by
  induction times generalizing hits with
  | nil =>
    rw [admitted, List.append_nil]
    exact List.Sublist.refl hits
  | cons now times inductionHypothesis =>
    have fewer : (recent window now hits).Sublist hits := List.filter_sublist
    rw [keptAfter, List.foldl_cons]
    rcases le_or_gt limit (recent window now hits).length with full | room
    · rw [admitted_cons_full full, ask_of_full full]
      exact (inductionHypothesis _).trans (fewer.append_right _)
    · rw [admitted_cons_room room, ask_of_room room]
      refine (inductionHypothesis _).trans ?_
      rw [List.append_assoc, List.singleton_append]
      exact fewer.append_right _

/-- What is refused is refused for as many admissions as the limit, less than a window ago. -/
theorem full_of_refused (refused : (ask window limit
      (keptAfter window limit [] times) now).2 = false) :
    limit ≤ (recent window now (admitted window limit [] times)).length := by
  rcases le_or_gt limit (recent window now (keptAfter window limit [] times)).length with
    full | room
  · have kept : (keptAfter window limit [] times).Sublist (admitted window limit [] times) :=
      keptAfter_sublist [] times
    exact full.trans (kept.filter _).length_le
  · rw [ask_of_room room] at refused
    cases refused

variable [IsOrderedAddMonoid Time] {first : Time}

/-- Admissions of a window that began earlier count against those that are left of it. -/
theorem admitted_within {counted : List Time} (ordered : times.Pairwise (· ≤ ·))
    (inside : ∀ time ∈ counted, first ≤ time)
    (earlier : ∀ time ∈ counted, ∀ later ∈ times, time ≤ later)
    (kept : counted.Sublist hits) (bounded : counted.length ≤ limit) :
    counted.length + ((admitted window limit hits times).filter fun time =>
      first ≤ time ∧ time < first + window).length ≤ limit := by
  induction times generalizing hits counted with
  | nil => exact bounded
  | cons now times inductionHypothesis =>
    obtain ⟨lowest, ordered⟩ := List.pairwise_cons.mp ordered
    by_cases past : first + window ≤ now
    · -- The window is over: nothing that is asked from now on falls into it.
      have empty : ((admitted window limit hits (now :: times)).filter fun time =>
          first ≤ time ∧ time < first + window) = [] := by
        rw [List.filter_eq_nil_iff]
        intro time member holds
        have later : now ≤ time := by
          rcases List.mem_cons.mp ((admitted_sublist _ _).mem member) with rfl | behind
          · exact le_rfl
          · exact lowest time behind
        exact absurd (of_decide_eq_true holds).2 (not_lt.mpr (past.trans later))
      rw [empty]
      exact bounded
    · have still : counted.Sublist (recent window now hits) := by
        have all : counted.filter (fun time => now - time < window) = counted := by
          rw [List.filter_eq_self]
          intro time member
          have open_ : now < time + window :=
            (not_le.mp past).trans_le (add_le_add_left (inside time member) window)
          exact decide_eq_true (sub_lt_iff_lt_add'.mpr open_)
        rw [← all]
        exact kept.filter _
      have before : ∀ time ∈ counted, ∀ later ∈ times, time ≤ later :=
        fun time member later behind => earlier time member later (List.mem_cons_of_mem _ behind)
      rcases le_or_gt limit (recent window now hits).length with full | room
      · rw [admitted_cons_full full]
        exact inductionHypothesis ordered inside before still bounded
      · rw [admitted_cons_room room, List.filter_cons]
        split
        · next holds =>
          have starts := (of_decide_eq_true holds).1
          have more := @inductionHypothesis _ (counted ++ [now]) ordered
            (fun time member => (List.mem_append.mp member).elim (inside time)
              fun new => List.mem_singleton.mp new ▸ starts)
            (fun time member later behind => (List.mem_append.mp member).elim
              (fun old => before time old later behind)
              fun new => List.mem_singleton.mp new ▸ lowest later behind)
            (still.append_right [now])
            (by
              rw [List.length_append, List.length_singleton]
              exact still.length_le.trans_lt room)
          rw [List.length_append, List.length_singleton] at more
          rw [List.length_cons]
          omega
        · refine inductionHypothesis ordered inside before ?_ bounded
          exact still.trans (List.sublist_append_left _ _)

/-- If the clock does not run back, no window of time sees more admissions than the limit. -/
theorem length_admitted_le (ordered : times.Pairwise (· ≤ ·)) (first : Time) :
    ((admitted window limit [] times).filter fun time =>
      first ≤ time ∧ time < first + window).length ≤ limit := by
  have bound : ([] : List Time).length + ((admitted window limit [] times).filter fun time =>
      first ≤ time ∧ time < first + window).length ≤ limit :=
    admitted_within ordered (fun _ absent => absurd absent List.not_mem_nil)
      (fun _ absent => absurd absent List.not_mem_nil) List.Sublist.slnil (Nat.zero_le limit)
  rwa [List.length_nil, Nat.zero_add] at bound

end Bound

end Library.Window

/-
This file gives tables of rows under a key: reading them in the order of the key,
and reading them page by page.

A page after a cursor holds the first rows, in the order of the key, whose key
lies beyond the cursor. A table whose rows are already in strict order is read as
it stands, so a page is then simply the beginning of what is left.
-/

import Mathlib

namespace Library

namespace Rows

variable {Row Key : Type} [LinearOrder Key] (key : Row → Key)

/-- `ORDER BY key ASC`. -/
def orderBy (rows : List Row) : List Row :=
  rows.insertionSort fun first second => key first ≤ key second

/-- The rows are in the strict order of their keys. -/
def Ordered (rows : List Row) : Prop :=
  rows.Pairwise fun first second => key first < key second

/-- `WHERE key > cursor ORDER BY key ASC LIMIT limit`. -/
def page (rows : List Row) (cursor : Key) (limit : ℕ) : List Row :=
  (orderBy key (rows.filter fun row => cursor < key row)).take limit

variable {key}

theorem orderBy_of_ordered {rows : List Row} (ordered : Ordered key rows) :
    orderBy key rows = rows :=
  List.Pairwise.insertionSort_eq (ordered.imp le_of_lt)

/-- Rows in strict order are what any arrangement of them is brought into. -/
theorem orderBy_of_perm {rows others : List Row} (ordered : Ordered key rows)
    (perm : others.Perm rows) : orderBy key others = rows := by
  refine List.Perm.eq_of_pairwise ?_ (List.pairwise_insertionSort _ _) (ordered.imp le_of_lt)
    ((List.perm_insertionSort _ _).trans perm)
  intro first second _ member below above
  have here : first ∈ rows := perm.mem_iff.mp ((List.mem_insertionSort _).mp ‹_›)
  have distinct : (rows.map key).Nodup := List.pairwise_map.mpr (ordered.imp ne_of_lt)
  exact List.inj_on_of_nodup_map distinct here member (le_antisymm below above)

/-- `ORDER BY key DESC LIMIT limit`, brought back into the order of the keys: the last rows. -/
theorem latest_of_ordered {rows : List Row} (ordered : Ordered key rows) (limit : ℕ) :
    orderBy key ((orderBy (fun row => OrderDual.toDual (key row)) rows).take limit) =
      rows.drop (rows.length - limit) := by
  have backwards : Ordered (fun row => OrderDual.toDual (key row)) rows.reverse :=
    List.pairwise_reverse.mpr ordered
  rw [orderBy_of_perm backwards (List.reverse_perm rows).symm, List.take_reverse]
  exact orderBy_of_perm (List.Pairwise.sublist (List.drop_sublist _ _) ordered)
    (List.reverse_perm _)

theorem mem_orderBy {rows : List Row} {row : Row} : row ∈ orderBy key rows ↔ row ∈ rows :=
  List.mem_insertionSort _

theorem ordered_append {first second : List Row} :
    Ordered key (first ++ second) ↔ Ordered key first ∧ Ordered key second ∧
      ∀ early ∈ first, ∀ late ∈ second, key early < key late :=
  List.pairwise_append

/-- A condition that only the first rows of an ordered table can meet is met by none of the rows
after those that do. -/
theorem not_of_mem_dropWhile {rows : List Row} {early : Row → Bool} (ordered : Ordered key rows)
    (downward : ∀ first second, key first < key second → early second = true → early first = true) :
    ∀ row ∈ rows.dropWhile early, early row = false := by
  induction rows with
  | nil => exact fun row absent => absurd absent List.not_mem_nil
  | cons head rest inductionHypothesis =>
    obtain ⟨below, tail⟩ := List.pairwise_cons.mp ordered
    cases starts : early head with
    | true =>
      rw [List.dropWhile_cons_of_pos starts]
      exact inductionHypothesis tail
    | false =>
      rw [List.dropWhile_cons_of_neg (by rw [starts]; exact Bool.false_ne_true)]
      intro row member
      rcases List.mem_cons.mp member with same | later
      · rw [same, starts]
      · by_contra met
        rw [downward head row (below row later) (Bool.eq_true_of_not_eq_false met)] at starts
        cases starts

/-- What is left of an ordered table beyond a cursor between its two parts is the second part. -/
theorem filter_of_split {done rest : List Row} {cursor : Key}
    (behind : ∀ row ∈ done, key row ≤ cursor) (ahead : ∀ row ∈ rest, cursor < key row) :
    ((done ++ rest).filter fun row => cursor < key row) = rest := by
  have none_behind : (done.filter fun row => cursor < key row) = [] := by
    refine List.filter_eq_nil_iff.mpr fun row member => ?_
    simp only [decide_eq_true_eq]
    exact not_lt.mpr (behind row member)
  have all_ahead : (rest.filter fun row => cursor < key row) = rest := by
    refine List.filter_eq_self.mpr fun row member => ?_
    simp only [decide_eq_true_eq]
    exact ahead row member
  rw [List.filter_append, none_behind, all_ahead, List.nil_append]

/-- The page of an ordered table after a cursor is the beginning of what is left. -/
theorem page_of_split {done rest : List Row} {cursor : Key} (limit : ℕ)
    (ordered : Ordered key rest) (behind : ∀ row ∈ done, key row ≤ cursor)
    (ahead : ∀ row ∈ rest, cursor < key row) :
    page key (done ++ rest) cursor limit = rest.take limit := by
  rw [page, filter_of_split behind ahead, orderBy_of_ordered ordered]

/-- Moving the cursor to the last row of a page moves exactly the page behind it. -/
theorem split_after {rest : List Row} {limit : ℕ} {last : Row} (ordered : Ordered key rest)
    (ends : (rest.take limit).getLast? = some last) :
    (∀ row ∈ rest.take limit, key row ≤ key last) ∧
      ∀ row ∈ rest.drop limit, key last < key row := by
  have parts : Ordered key (rest.take limit ++ rest.drop limit) := by
    rw [List.take_append_drop]
    exact ordered
  obtain ⟨front, _, between⟩ := ordered_append.mp parts
  obtain ⟨shown, shown_eq⟩ := List.getLast?_eq_some_iff.mp ends
  refine ⟨fun row member => ?_, fun row member => ?_⟩
  · rw [shown_eq] at member front
    rcases List.mem_append.mp member with early | final
    · exact le_of_lt ((ordered_append.mp front).2.2 row early last List.mem_cons_self)
    · rw [List.mem_singleton.mp final]
  · refine between last ?_ row member
    rw [shown_eq]
    exact List.mem_append_right _ List.mem_cons_self

end Rows

end Library

/-
This file reads tables page by page, one row more than a page holds telling whether
there is a next page, and the key of a page's last row telling where it begins.

A table is a store, read in the order of its primary key. A listing of it is in the
order of another key; if that key tells the listed rows apart, then following the pages
gives all of them, each once and in strict order.
-/

import OpenSocial.Library.Rows
import OpenSocial.Library.Store

namespace Library

/-! ### The rows of a store -/

namespace Store

variable {Key Record Order : Type} [LinearOrder Order] (rank : Key ↪ Order)

/-- Keys in the order of their ranks. -/
def sorted (keys : List Key) : List Key :=
  keys.insertionSort fun first second => rank first ≤ rank second

theorem sorted_perm {first second : List Key} (perm : first.Perm second) :
    sorted rank first = sorted rank second := by
  have along : (first.map rank).insertionSort (· ≤ ·) = (second.map rank).insertionSort (· ≤ ·) :=
    List.Perm.eq_of_pairwise (fun _ _ _ _ => le_antisymm) (List.pairwise_insertionSort _ _)
      (List.pairwise_insertionSort _ _)
      (((List.perm_insertionSort _ _).trans (perm.map rank)).trans
        (List.perm_insertionSort _ _).symm)
  have mapped : ∀ keys : List Key, (sorted rank keys).map rank =
      (keys.map rank).insertionSort (· ≤ ·) := fun keys =>
    List.map_insertionSort _ _ rank keys fun _ _ _ _ => Iff.rfl
  refine rank.injective.list_map ?_
  rw [mapped, mapped, along]

/-- The keys of a store, in the order of their ranks. -/
def sortedKeys (store : Store Key Record) : List Key :=
  Quot.liftOn store.keys.val (sorted rank) fun _ _ => sorted_perm rank

variable {rank} {store : Store Key Record}

theorem sortedKeys_perm : ((store.sortedKeys rank : List Key) : Multiset Key) = store.keys.val := by
  unfold sortedKeys
  induction store.keys.val using Quot.inductionOn with
  | h keys => exact Quot.sound (List.perm_insertionSort _ keys)

theorem mem_sortedKeys {key : Key} : key ∈ store.sortedKeys rank ↔ key ∈ store.keys := by
  rw [← Multiset.mem_coe, sortedKeys_perm]
  rfl

theorem nodup_sortedKeys : (store.sortedKeys rank).Nodup := by
  rw [← Multiset.coe_nodup, sortedKeys_perm]
  exact store.keys.nodup

variable [DecidableEq Key]

variable (rank) in
/-- The rows of a store, in the order of the ranks of their keys. -/
def rows (store : Store Key Record) : List (Key × Record) :=
  (store.sortedKeys rank).filterMap fun key => (store.get key).map fun record => (key, record)

/-- The rows of a store are its entries. -/
theorem mem_rows {key : Key} {record : Record} :
    (key, record) ∈ store.rows rank ↔ store.get key = some record := by
  unfold rows
  rw [List.mem_filterMap]
  constructor
  · rintro ⟨other, _, found⟩
    obtain ⟨same, stored, pair⟩ := Option.map_eq_some_iff.mp found
    cases pair
    exact stored
  · intro stored
    refine ⟨key, mem_sortedKeys.mpr ?_, by rw [stored]; rfl⟩
    rw [Finmap.mem_keys]
    exact Finmap.mem_of_lookup_eq_some stored

theorem nodup_rows : ((store.rows rank).map Prod.fst).Nodup := by
  have keys : (store.sortedKeys rank).Nodup := nodup_sortedKeys
  refine keys.sublist ?_
  unfold rows
  generalize store.sortedKeys rank = keys
  induction keys with
  | nil => exact List.Sublist.slnil
  | cons head rest inductionHypothesis =>
    cases stored : store.get head with
    | none =>
      rw [List.filterMap_cons_none (by rw [stored]; rfl)]
      exact inductionHypothesis.cons _
    | some record =>
      rw [List.filterMap_cons_some (by rw [stored]; rfl), List.map_cons]
      exact inductionHypothesis.cons_cons _

end Store

/-! ### Pages -/

namespace Rows

variable {Row Key : Type} [LinearOrder Key] (key : Row → Key)

/-- The rows of a page, and the key the next page begins behind. -/
structure Page (Row Key : Type) where
  items : List Row
  next : Option Key

/-- The rows behind a cursor; without one, all of them. -/
def beyond (rows : List Row) (cursor : Option Key) : List Row :=
  rows.filter fun row => cursor.elim true fun cursor => cursor < key row

/-- The page behind a cursor, of at most `limit` rows. -/
def pageAfter (rows : List Row) (cursor : Option Key) (limit : ℕ) : Page Row Key :=
  let found := (orderBy key (beyond key rows cursor)).take (limit + 1)
  let more := limit < found.length
  let page := if more then found.take limit else found
  ⟨page, if more then page.getLast?.map key else none⟩

/-- Following the pages until there is no next one: the pages one gets. -/
inductive Follows (rows : List Row) (limit : ℕ) : Option Key → List (List Row) → Prop
  | last {cursor : Option Key} (ended : (pageAfter key rows cursor limit).next = none) :
      Follows rows limit cursor [(pageAfter key rows cursor limit).items]
  | next {cursor : Option Key} {last : Key} {pages : List (List Row)}
      (continued : (pageAfter key rows cursor limit).next = some last)
      (rest : Follows rows limit (some last) pages) :
      Follows rows limit cursor ((pageAfter key rows cursor limit).items :: pages)

variable {key} {rows : List Row}

theorem orderBy_filter (distinct : (rows.map key).Nodup) (wanted : Row → Bool) :
    orderBy key (rows.filter wanted) = (orderBy key rows).filter wanted := by
  have perm : (orderBy key (rows.filter wanted)).Perm ((orderBy key rows).filter wanted) :=
    (List.perm_insertionSort _ _).trans ((List.perm_insertionSort _ _).symm.filter _)
  refine List.Perm.eq_of_pairwise ?_ (List.pairwise_insertionSort _ _)
    ((List.pairwise_insertionSort _ _).filter _) perm
  intro first second member member' below above
  have here : first ∈ rows := (List.mem_filter.mp (mem_orderBy.mp member)).1
  have there : second ∈ rows := mem_orderBy.mp (List.mem_filter.mp member').1
  exact List.inj_on_of_nodup_map distinct here there (le_antisymm below above)

theorem ordered_orderBy (distinct : (rows.map key).Nodup) : Ordered key (orderBy key rows) := by
  have sorted : (orderBy key rows).Pairwise fun first second => key first ≤ key second :=
    List.pairwise_insertionSort _ _
  have apart : (orderBy key rows).Pairwise fun first second => key first ≠ key second := by
    have nodup : ((orderBy key rows).map key).Nodup :=
      ((List.perm_insertionSort _ rows).map key).nodup_iff.mpr distinct
    exact List.pairwise_map.mp nodup
  exact sorted.imp₂ (fun _ _ below other => lt_of_le_of_ne below other) apart

theorem beyond_none : beyond key rows none = rows := by
  unfold beyond
  exact List.filter_eq_self.mpr fun _ _ => rfl

theorem mem_beyond {cursor : Key} {row : Row} :
    row ∈ beyond key rows (some cursor) ↔ row ∈ rows ∧ cursor < key row := by
  unfold beyond
  rw [List.mem_filter]
  exact and_congr_right fun _ => decide_eq_true_iff

theorem distinct_beyond (distinct : (rows.map key).Nodup) (cursor : Option Key) :
    ((beyond key rows cursor).map key).Nodup :=
  distinct.sublist (List.filter_sublist.map key)

theorem length_orderBy (rows : List Row) : (orderBy key rows).length = rows.length :=
  List.length_insertionSort _ _

/-- Behind a row that is behind the cursor is what is behind it of that. -/
theorem beyond_last {cursor : Option Key} {last : Row} (member : last ∈ beyond key rows cursor) :
    beyond key rows (some (key last)) =
      (beyond key rows cursor).filter fun row => key last < key row := by
  unfold beyond
  rw [List.filter_filter]
  refine List.filter_congr fun row _ => ?_
  by_cases after : key last < key row
  · have reached : (cursor.elim true fun cursor => decide (cursor < key row)) = true := by
      cases cursor with
      | none => rfl
      | some cursor =>
        have above := (List.mem_filter.mp member).2
        exact decide_eq_true ((of_decide_eq_true above).trans after)
    rw [reached, Bool.and_true]
    rfl
  · rw [decide_eq_false after, Bool.false_and]
    exact decide_eq_false after

/-- A page is the beginning of what is behind the cursor, and the next one begins behind it. -/
theorem pageAfter_spec (distinct : (rows.map key).Nodup) {limit : ℕ} (positive : 1 ≤ limit)
    (cursor : Option Key) :
    (pageAfter key rows cursor limit).next = none ∧
        (pageAfter key rows cursor limit).items = orderBy key (beyond key rows cursor) ∨
      ∃ last, (pageAfter key rows cursor limit).next = some last ∧
        (beyond key rows (some last)).length < (beyond key rows cursor).length ∧
        (pageAfter key rows cursor limit).items ++ orderBy key (beyond key rows (some last)) =
          orderBy key (beyond key rows cursor) := by
  have distinct := distinct_beyond distinct cursor
  have ordered := ordered_orderBy distinct
  have length := @length_orderBy _ _ _ key (beyond key rows cursor)
  unfold pageAfter
  dsimp only
  by_cases more : limit < (orderBy key (beyond key rows cursor)).length
  · have found : limit < ((orderBy key (beyond key rows cursor)).take (limit + 1)).length := by
      rw [List.length_take]
      omega
    rw [if_pos found, if_pos found, List.take_take, Nat.min_eq_left (Nat.le_succ limit)]
    obtain ⟨last, ends⟩ : ∃ last,
        ((orderBy key (beyond key rows cursor)).take limit).getLast? = some last := by
      refine ⟨_, List.getLast?_eq_some_getLast fun empty => ?_⟩
      rw [List.take_eq_nil_iff] at empty
      rcases empty with zero | nothing
      · omega
      · rw [nothing] at more
        exact absurd more (Nat.not_lt_zero limit)
    obtain ⟨behind, ahead⟩ := split_after ordered ends
    have member : last ∈ beyond key rows cursor :=
      mem_orderBy.mp (List.mem_of_mem_take (List.mem_of_getLast? ends))
    have rest : orderBy key (beyond key rows (some (key last))) =
        (orderBy key (beyond key rows cursor)).drop limit := by
      rw [beyond_last member, orderBy_filter distinct]
      conv_lhs => rw [← List.take_append_drop limit (orderBy key (beyond key rows cursor))]
      exact filter_of_split behind ahead
    refine .inr ⟨key last, by rw [ends]; rfl, ?_, ?_⟩
    · have fewer := congrArg List.length rest
      rw [length_orderBy, List.length_drop] at fewer
      omega
    · rw [rest, List.take_append_drop]
  · have found : ¬ limit < ((orderBy key (beyond key rows cursor)).take (limit + 1)).length := by
      rw [List.length_take]
      omega
    rw [if_neg found, if_neg found, List.take_of_length_le (by omega)]
    exact .inl ⟨rfl, rfl⟩

/-- A page ends at the key of one of the rows. -/
theorem key_of_next {cursor : Option Key} {limit : ℕ} {last : Key}
    (continued : (pageAfter key rows cursor limit).next = some last) :
    ∃ row ∈ rows, key row = last := by
  unfold pageAfter at continued
  dsimp only at continued
  split at continued
  · obtain ⟨row, ends, same⟩ := Option.map_eq_some_iff.mp continued
    have member := List.mem_of_mem_take (List.mem_of_mem_take (List.mem_of_getLast? ends))
    exact ⟨row, (List.mem_filter.mp (mem_orderBy.mp member)).1, same⟩
  · cases continued

/-- Following the pages behind a cursor ends, with all rows behind it in order. -/
theorem follows_all (distinct : (rows.map key).Nodup) {limit : ℕ} (positive : 1 ≤ limit)
    (cursor : Option Key) :
    ∃ pages, Follows key rows limit cursor pages ∧
      pages.flatten = orderBy key (beyond key rows cursor) := by
  generalize left : (beyond key rows cursor).length = measure
  induction measure using Nat.strong_induction_on generalizing cursor with
  | _ measure inductionHypothesis =>
    rcases pageAfter_spec distinct positive cursor with
      ⟨ended, items⟩ | ⟨last, continued, fewer, items⟩
    · exact ⟨_, .last ended, by rw [items, List.flatten_singleton]⟩
    · rw [left] at fewer
      obtain ⟨pages, follows, joined⟩ := inductionHypothesis _ fewer (some last) rfl
      exact ⟨_, .next continued follows, by rw [List.flatten_cons, joined, items]⟩

theorem follows_unique {limit : ℕ} {cursor : Option Key} {pages others : List (List Row)}
    (follows : Follows key rows limit cursor pages)
    (again : Follows key rows limit cursor others) : others = pages := by
  induction follows generalizing others with
  | last ended =>
    cases again with
    | last _ => rfl
    | next continued _ =>
      rw [ended] at continued
      cases continued
  | next continued _ inductionHypothesis =>
    cases again with
    | last ended =>
      rw [ended] at continued
      cases continued
    | next other rest =>
      rw [continued] at other
      cases other
      rw [inductionHypothesis rest]

/-! ### Pages whose cursor does not tell the rows apart -/

section Walks

variable (key) (rows) (limit : ℕ)

/-- Following pages that begin strictly behind the key of the last row of the one before, until one
is empty: the pages one gets. -/
inductive Walk : Option Key → List (List Row) → Prop
  | done {cursor : Option Key} (empty : (beyond key rows cursor).take limit = []) : Walk cursor []
  | page {cursor : Option Key} {last : Row} {pages : List (List Row)}
      (ends : ((beyond key rows cursor).take limit).getLast? = some last)
      (rest : Walk (some (key last)) pages) :
      Walk cursor ((beyond key rows cursor).take limit :: pages)

/-- No two rows of one key stand on both sides of a page's end. -/
def Parted : Prop :=
  ∀ page first second, rows[(page + 1) * limit - 1]? = some first →
    rows[(page + 1) * limit]? = some second → key first ≠ key second

variable {key} {rows} {limit}

theorem walk_unique {cursor : Option Key} {pages others : List (List Row)}
    (walk : Walk key rows limit cursor pages) (again : Walk key rows limit cursor others) :
    others = pages := by
  induction walk generalizing others with
  | done empty =>
    cases again with
    | done _ => rfl
    | page ends _ =>
      rw [empty] at ends
      cases ends
  | page ends _ inductionHypothesis =>
    cases again with
    | done empty =>
      rw [empty] at ends
      cases ends
    | page other rest =>
      rw [ends] at other
      cases other
      rw [inductionHypothesis rest]

/-- The end of a page of what is left: what is behind it is at most the rest, and is the rest exactly
if the first of the rest has another key. -/
theorem behind_end {rest : List Row} {last : Row}
    (rising : rest.Pairwise fun first second => key first ≤ key second)
    (ends : (rest.take limit).getLast? = some last) :
    (rest.filter fun row => key last < key row) =
      (rest.drop limit).filter fun row => key last < key row := by
  conv_lhs => rw [← List.take_append_drop limit rest, List.filter_append]
  have front : (rest.take limit).filter (fun row => key last < key row) = [] := by
    refine List.filter_eq_nil_iff.mpr fun row member => ?_
    rw [decide_eq_true_eq, not_lt]
    obtain ⟨shown, shown_eq⟩ := List.getLast?_eq_some_iff.mp ends
    have sorted := rising.sublist (List.take_sublist limit rest)
    rw [shown_eq] at member sorted
    rcases List.mem_append.mp member with early | final
    · exact (List.pairwise_append.mp sorted).2.2 row early last List.mem_cons_self
    · rw [List.mem_singleton.mp final]
  rw [front, List.nil_append]

omit [LinearOrder Key] in
/-- The end of the first page, and those of the rest. -/
theorem parted_drop (positive : 1 ≤ limit) {rest : List Row} :
    Parted key rest limit ↔
      (∀ first second, rest[limit - 1]? = some first → rest[limit]? = some second →
        key first ≠ key second) ∧ Parted key (rest.drop limit) limit := by
  have shift : ∀ page, limit + ((page + 1) * limit - 1) = (page + 1 + 1) * limit - 1 := by
    intro page
    have product : (page + 1 + 1) * limit = (page + 1) * limit + limit := by ring
    have room : limit ≤ (page + 1) * limit := Nat.le_mul_of_pos_left limit (Nat.succ_pos page)
    omega
  have shift' : ∀ page, limit + (page + 1) * limit = (page + 1 + 1) * limit := by
    intro page
    ring
  constructor
  · intro parted
    refine ⟨fun first second => ?_, fun page first second => ?_⟩
    · have start := parted 0 first second
      rw [Nat.zero_add, Nat.one_mul] at start
      exact start
    · rw [List.getElem?_drop, List.getElem?_drop, shift, shift']
      exact parted (page + 1) first second
  · rintro ⟨start, later⟩ page first second
    cases page with
    | zero =>
      rw [Nat.zero_add, Nat.one_mul]
      exact start first second
    | succ page =>
      have next := later page first second
      rw [List.getElem?_drop, List.getElem?_drop, shift, shift'] at next
      exact next

/-- If another key begins behind a page, then all that is left is behind its last row. -/
theorem behind_end_iff (positive : 1 ≤ limit) {rest : List Row} {last : Row}
    (rising : rest.Pairwise fun first second => key first ≤ key second)
    (ends : (rest.take limit).getLast? = some last) :
    (rest.drop limit).filter (fun row => key last < key row) = rest.drop limit ↔
      ∀ first second, rest[limit - 1]? = some first → rest[limit]? = some second →
        key first ≠ key second := by
  rw [List.filter_eq_self]
  simp only [decide_eq_true_eq]
  cases behind : rest.drop limit with
  | nil =>
    have short := List.drop_eq_nil_iff.mp behind
    refine ⟨fun _ first second _ next => ?_, fun _ row member => absurd member List.not_mem_nil⟩
    rw [List.getElem?_eq_none short] at next
    cases next
  | cons head tail =>
    have next : rest[limit]? = some head := by
      have first := congrArg List.head? behind
      rw [List.head?_drop] at first
      exact first
    have inside : limit < rest.length := (List.getElem?_eq_some_iff.mp next).1
    have final : rest[limit - 1]? = some last := by
      rw [List.getLast?_eq_getElem?, List.length_take, Nat.min_eq_left inside.le,
        List.getElem?_take_of_lt (by omega)] at ends
      exact ends
    have parts : (rest.take limit ++ head :: tail).Pairwise fun first second =>
        key first ≤ key second := by
      rw [← behind, List.take_append_drop]
      exact rising
    obtain ⟨_, sorted, between⟩ := List.pairwise_append.mp parts
    constructor
    · intro above first second there here
      rw [final] at there
      rw [next] at here
      cases there
      cases here
      exact (above head List.mem_cons_self).ne
    · intro apart row member
      have below := between last (List.mem_of_getLast? ends) head List.mem_cons_self
      have less : key last < key head := lt_of_le_of_ne below (apart last head final next)
      rcases List.mem_cons.mp member with rfl | later
      · exact less
      · exact less.trans_le ((List.pairwise_cons.mp sorted).1 row later)

/-- The pages end, show some of the rows in order, and show all of them exactly if no two rows of
one key stand on both sides of a page's end. -/
theorem walk_spec (positive : 1 ≤ limit)
    (rising : rows.Pairwise fun first second => key first ≤ key second) (cursor : Option Key) :
    ∃ pages, Walk key rows limit cursor pages ∧
      pages.flatten.Sublist (beyond key rows cursor) ∧
      (pages.flatten = beyond key rows cursor ↔ Parted key (beyond key rows cursor) limit) := by
  generalize left : (beyond key rows cursor).length = measure
  induction measure using Nat.strong_induction_on generalizing cursor with
  | _ measure inductionHypothesis =>
    have sorted : (beyond key rows cursor).Pairwise fun first second => key first ≤ key second :=
      rising.filter _
    cases ends : ((beyond key rows cursor).take limit).getLast? with
    | none =>
      have empty := List.getLast?_eq_none_iff.mp ends
      have nothing : beyond key rows cursor = [] := by
        rcases List.take_eq_nil_iff.mp empty with zero | nothing
        · omega
        · exact nothing
      refine ⟨[], .done empty, List.nil_sublist _, fun _ => ?_, fun _ => nothing.symm⟩
      rw [nothing]
      intro page first second there
      cases there
    | some last =>
      have member : last ∈ beyond key rows cursor :=
        List.mem_of_mem_take (List.mem_of_getLast? ends)
      have next : beyond key rows (some (key last)) =
          ((beyond key rows cursor).drop limit).filter fun row => key last < key row :=
        (beyond_last member).trans (behind_end sorted ends)
      have shorter : (beyond key rows (some (key last))).Sublist
          ((beyond key rows cursor).drop limit) := by
        rw [next]
        exact List.filter_sublist
      have fewer : (beyond key rows (some (key last))).length < measure := by
        have length := shorter.length_le
        have some_row := List.length_pos_of_mem member
        rw [List.length_drop] at length
        omega
      obtain ⟨pages, walk, shown, whole⟩ := inductionHypothesis _ fewer (some (key last)) rfl
      refine ⟨_, .page ends walk, ?_, ?_⟩
      · rw [List.flatten_cons]
        have parts := (List.Sublist.refl ((beyond key rows cursor).take limit)).append
          (shown.trans shorter)
        rwa [List.take_append_drop] at parts
      · rw [List.flatten_cons, parted_drop positive]
        have cut : (beyond key rows cursor).take limit ++ pages.flatten = beyond key rows cursor ↔
            pages.flatten = (beyond key rows cursor).drop limit := by
          constructor
          · intro same
            refine List.append_cancel_left (same.trans ?_)
            exact (List.take_append_drop limit (beyond key rows cursor)).symm
          · intro same
            rw [same, List.take_append_drop]
        rw [cut, ← behind_end_iff positive sorted ends, ← next]
        constructor
        · intro same
          have all : beyond key rows (some (key last)) = (beyond key rows cursor).drop limit :=
            shorter.eq_of_length_le (same ▸ shown.length_le)
          refine ⟨all, ?_⟩
          rw [← all]
          exact whole.mp (same.trans all.symm)
        · rintro ⟨all, parted⟩
          rw [← all] at parted ⊢
          exact whole.mpr parted

end Walks

end Rows

end Library

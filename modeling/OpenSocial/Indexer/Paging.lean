/-
This file proves that paging through the decoded events loses nothing.

A page is the rows up to some height: either all that are left, or those below the
first height that the limit does not let in, or, where a single block is larger
than the limit, that block. Each page therefore cuts the ordered log between two
heights, and following the heights gives the log back.
-/

import OpenSocial.Indexer.Integrity

namespace OpenSocial.Indexer

open Library

/-! ### The query -/

structure EventLogView where
  height : ℤ
  blockId : String
  txId : String
  txIndex : ℕ
  sequence : ℕ
  contract : ContractName
  name : String
  data : Json
  impacted : List String

def eventLogView (row : EventLogRow) : EventLogView where
  height := row.height
  blockId := row.blockId
  txId := row.txId
  txIndex := row.txIndex
  sequence := row.sequence
  contract := row.contract
  name := row.name
  data := if row.dataJson = .null then .object [] else row.dataJson
  impacted := row.impacted

structure EventsPage where
  items : List EventLogView
  nextHeight : Option ℤ

/-- `WHERE height >= ? ORDER BY height, tx_index, sequence`. -/
def rowsFrom (db : IndexerDb) (fromHeight : ℤ) : List EventLogRow :=
  Rows.orderBy EventLogRow.position (db.eventLog.filter fun row => fromHeight ≤ row.height)

/-- `WHERE height = ? ORDER BY tx_index, sequence`. -/
def rowsAt (db : IndexerDb) (height : ℤ) : List EventLogRow :=
  Rows.orderBy EventLogRow.position (db.eventLog.filter fun row => (row.height : ℤ) = height)

/-- The decoded events from a height, whole blocks at a time. -/
def eventsFrom (db : IndexerDb) (fromHeight : ℤ) (limit : ℕ) : EventsPage :=
  match db.lastCheckpoint with
  | none => ⟨[], none⟩
  | some tip =>
    if tip.height < fromHeight then ⟨[], none⟩
    else
      let rows := (rowsFrom db fromHeight).take (limit + 1)
      match rows[limit]? with
      | none => ⟨rows.map eventLogView, none⟩
      | some extra =>
        let page := rows.take limit
        if page.getLast?.map EventLogRow.height = some extra.height then
          let page := page.filter fun row => row.height ≠ extra.height
          if page.length = 0 then
            ⟨(rowsAt db extra.height).map eventLogView,
              if tip.height ≤ extra.height then none else some (extra.height + 1)⟩
          else ⟨page.map eventLogView, some extra.height⟩
        else ⟨page.map eventLogView, some extra.height⟩

/-- Following the heights to continue from, until there is none: the pages one gets. -/
inductive Follows (db : IndexerDb) (limit : ℕ) : ℤ → List (List EventLogView) → Prop
  | last {fromHeight : ℤ} (ended : (eventsFrom db fromHeight limit).nextHeight = none) :
      Follows db limit fromHeight [(eventsFrom db fromHeight limit).items]
  | next {fromHeight height : ℤ} {pages : List (List EventLogView)}
      (continued : (eventsFrom db fromHeight limit).nextHeight = some height)
      (rest : Follows db limit height pages) :
      Follows db limit fromHeight ((eventsFrom db fromHeight limit).items :: pages)

/-! ### Cutting an ordered log at a height -/

/-- What is stored: the rows in the order of their key, none above the tip. -/
structure Stored (db : IndexerDb) : Prop where
  ordered : Rows.Ordered EventLogRow.position db.eventLog
  reached : ∀ row ∈ db.eventLog, ∃ tip, db.lastCheckpoint = some tip ∧ row.height ≤ tip.height

/-- The rows come in the order of their heights. -/
def Rising (rows : List EventLogRow) : Prop :=
  rows.Pairwise fun first second => first.height ≤ second.height

theorem rising_of_ordered {rows : List EventLogRow}
    (ordered : Rows.Ordered EventLogRow.position rows) : Rising rows := by
  refine ordered.imp ?_
  intro first second before
  by_contra above
  exact lt_asymm before (positionOf_lt_of_height (Nat.not_le.mp above))

theorem split_at_height {rows : List EventLogRow} (rising : Rising rows) (height : ℤ) :
    rows = (rows.filter fun row => row.height < height) ++
      rows.filter fun row => height ≤ row.height := by
  induction rows with
  | nil => rfl
  | cons head rest inductionHypothesis =>
    obtain ⟨least, tail⟩ := List.pairwise_cons.mp rising
    by_cases below : (head.height : ℤ) < height
    · have other : ¬ height ≤ head.height := not_le.mpr below
      rw [List.filter_cons, List.filter_cons, if_pos (decide_eq_true below),
        if_neg (by rw [decide_eq_true_eq]; exact other), List.cons_append,
        ← inductionHypothesis tail]
    · have all : ∀ row ∈ head :: rest, height ≤ row.height := by
        intro row member
        rcases List.mem_cons.mp member with rfl | later
        · exact not_lt.mp below
        · exact (not_lt.mp below).trans (Int.ofNat_le.mpr (least row later))
      have none_below : ((head :: rest).filter fun row => row.height < height) = [] := by
        refine List.filter_eq_nil_iff.mpr fun row member => ?_
        rw [decide_eq_true_eq]
        exact not_lt.mpr (all row member)
      have all_from : ((head :: rest).filter fun row => height ≤ row.height) = head :: rest :=
        List.filter_eq_self.mpr fun row member => decide_eq_true (all row member)
      rw [none_below, all_from, List.nil_append]

/-- Of the first rows, those that are not of the height that comes next are all below it. -/
theorem filter_take {rows : List EventLogRow} (rising : Rising rows) {limit : ℕ}
    {extra : EventLogRow} (next : rows[limit]? = some extra) :
    ((rows.take limit).filter fun row => row.height ≠ extra.height) =
      rows.filter fun row => row.height < extra.height := by
  obtain ⟨inside, same⟩ := List.getElem?_eq_some_iff.mp next
  have parts : rows.take limit ++ rows.drop limit = rows := List.take_append_drop limit rows
  have behind : rows.drop limit = extra :: rows.drop (limit + 1) := by
    rw [← same]
    exact List.drop_eq_getElem_cons inside
  have split : Rising (rows.take limit ++ extra :: rows.drop (limit + 1)) := by
    rw [← behind, parts]
    exact rising
  obtain ⟨_, after, between⟩ := List.pairwise_append.mp split
  have front : (rows.take limit).filter (fun row => row.height ≠ extra.height) =
      (rows.take limit).filter fun row => row.height < extra.height := by
    refine List.filter_congr fun row member => ?_
    have below := between row member extra List.mem_cons_self
    exact decide_eq_decide.mpr ⟨fun other => lt_of_le_of_ne below other, fun less => less.ne⟩
  have back : ((rows.drop limit).filter fun row => row.height < extra.height) = [] := by
    refine List.filter_eq_nil_iff.mpr fun row member => ?_
    rw [decide_eq_true_eq, not_lt]
    rw [behind] at member
    rcases List.mem_cons.mp member with rfl | later
    · exact le_rfl
    · exact (List.pairwise_cons.mp after).1 row later
  rw [front]
  conv_rhs => rw [← parts, List.filter_append, back, List.append_nil]

/-- First rows whose last one is not of the height that comes next are all below it. -/
theorem filter_take_self {rows : List EventLogRow} (rising : Rising rows) {limit : ℕ}
    {extra last : EventLogRow} (next : rows[limit]? = some extra)
    (ends : (rows.take limit).getLast? = some last) (apart : last.height ≠ extra.height) :
    ((rows.take limit).filter fun row => row.height ≠ extra.height) = rows.take limit := by
  obtain ⟨inside, same⟩ := List.getElem?_eq_some_iff.mp next
  have behind : rows.drop limit = extra :: rows.drop (limit + 1) := by
    rw [← same]
    exact List.drop_eq_getElem_cons inside
  have split : Rising (rows.take limit ++ extra :: rows.drop (limit + 1)) := by
    rw [← behind, List.take_append_drop]
    exact rising
  obtain ⟨front, _, between⟩ := List.pairwise_append.mp split
  obtain ⟨shown, shown_eq⟩ := List.getLast?_eq_some_iff.mp ends
  have low : last.height ≤ extra.height := between last (List.mem_of_getLast? ends) extra
    List.mem_cons_self
  refine List.filter_eq_self.mpr fun row member => decide_eq_true ?_
  have below : row.height ≤ last.height := by
    rw [shown_eq] at member front
    rcases List.mem_append.mp member with early | final
    · exact (List.pairwise_append.mp front).2.2 row early last List.mem_cons_self
    · rw [List.mem_singleton.mp final]
  omega

/-! ### One page -/

section Page

variable {db : IndexerDb} {limit : ℕ} {fromHeight : ℤ}

theorem rowsFrom_eq (stored : Stored db) (height : ℤ) :
    rowsFrom db height = db.eventLog.filter fun row => height ≤ row.height :=
  Rows.orderBy_of_ordered (stored.ordered.filter _)

theorem rising_rowsFrom (stored : Stored db) (height : ℤ) : Rising (rowsFrom db height) := by
  rw [rowsFrom_eq stored]
  exact (rising_of_ordered stored.ordered).filter _

/-- Beyond a later height, the rows from a height are those from the later one. -/
theorem filter_rowsFrom (stored : Stored db) {height : ℤ} (later : fromHeight ≤ height) :
    ((rowsFrom db fromHeight).filter fun row => height ≤ row.height) = rowsFrom db height := by
  rw [rowsFrom_eq stored, rowsFrom_eq stored, List.filter_filter]
  refine List.filter_congr fun row _ => ?_
  by_cases above : height ≤ row.height
  · rw [decide_eq_true above, decide_eq_true (later.trans above)]
    rfl
  · rw [decide_eq_false above]
    rfl

/-- A block with nothing below it, as the rows from the height up to the next one. -/
theorem rowsAt_eq (stored : Stored db) {extra : EventLogRow}
    (member : extra ∈ rowsFrom db fromHeight)
    (alone : ((rowsFrom db fromHeight).filter fun row => row.height < extra.height) = []) :
    rowsAt db extra.height =
      (rowsFrom db fromHeight).filter fun row => (row.height : ℤ) < extra.height + 1 := by
  rw [rowsFrom_eq stored] at member alone ⊢
  have above : fromHeight ≤ extra.height := of_decide_eq_true (List.mem_filter.mp member).2
  rw [rowsAt, Rows.orderBy_of_ordered (stored.ordered.filter _), List.filter_filter]
  refine List.filter_congr fun row found => ?_
  have not_below : fromHeight ≤ row.height → ¬ row.height < extra.height := by
    intro from_le less
    have present : row ∈ db.eventLog.filter fun row => fromHeight ≤ row.height :=
      List.mem_filter.mpr ⟨found, decide_eq_true from_le⟩
    exact List.filter_eq_nil_iff.mp alone row present (decide_eq_true less)
  by_cases same : (row.height : ℤ) = extra.height
  · rw [decide_eq_true same, same, decide_eq_true (lt_add_one _), decide_eq_true above]
    rfl
  · rw [decide_eq_false same]
    by_cases from_le : fromHeight ≤ row.height
    · have high := not_below from_le
      have beyond : ¬ (row.height : ℤ) < extra.height + 1 := by omega
      rw [decide_eq_false beyond]
      rfl
    · rw [decide_eq_false from_le, Bool.and_false]

/-- A page holds the rows from its height that lie below the height to continue from, which is
above its own and not above the tip; without one it holds all that are left. -/
theorem eventsFrom_cut (stored : Stored db) (positive : 1 ≤ limit) :
    (eventsFrom db fromHeight limit).nextHeight = none ∧
        (eventsFrom db fromHeight limit).items = (rowsFrom db fromHeight).map eventLogView ∨
      ∃ tip height, db.lastCheckpoint = some tip ∧
        (eventsFrom db fromHeight limit).nextHeight = some height ∧ fromHeight < height ∧
        height ≤ tip.height ∧
        (eventsFrom db fromHeight limit).items =
          ((rowsFrom db fromHeight).filter fun row => row.height < height).map eventLogView := by
  have rising := rising_rowsFrom stored fromHeight
  have from_le : ∀ row ∈ rowsFrom db fromHeight, fromHeight ≤ row.height := by
    intro row member
    rw [rowsFrom_eq stored] at member
    exact of_decide_eq_true (List.mem_filter.mp member).2
  have reached : ∀ row ∈ rowsFrom db fromHeight, ∀ tip, db.lastCheckpoint = some tip →
      row.height ≤ tip.height := by
    intro row member tip last
    rw [rowsFrom_eq stored] at member
    obtain ⟨other, same, below⟩ := stored.reached row (List.mem_filter.mp member).1
    rw [Option.some.inj (last.symm.trans same)]
    exact below
  have nothing : (∀ row ∈ rowsFrom db fromHeight, False) → rowsFrom db fromHeight = [] :=
    fun absurd => List.eq_nil_iff_forall_not_mem.mpr absurd
  unfold eventsFrom
  cases last : db.lastCheckpoint with
  | none =>
    have empty : rowsFrom db fromHeight = [] := by
      refine nothing fun row member => ?_
      rw [rowsFrom_eq stored] at member
      obtain ⟨tip, same, _⟩ := stored.reached row (List.mem_filter.mp member).1
      rw [last] at same
      cases same
    exact Or.inl ⟨rfl, by rw [empty]; rfl⟩
  | some tip =>
    dsimp only
    by_cases beyond : (tip.height : ℤ) < fromHeight
    · have empty : rowsFrom db fromHeight = [] := by
        refine nothing fun row member => ?_
        have below := reached row member tip last
        have above := from_le row member
        omega
      rw [if_pos beyond]
      exact Or.inl ⟨rfl, by rw [empty]; rfl⟩
    rw [if_neg beyond]
    cases next : ((rowsFrom db fromHeight).take (limit + 1))[limit]? with
    | none =>
      have short : (rowsFrom db fromHeight).length ≤ limit := by
        rw [List.getElem?_eq_none_iff, List.length_take] at next
        omega
      refine Or.inl ⟨rfl, ?_⟩
      dsimp only
      rw [List.take_of_length_le (short.trans (Nat.le_succ limit))]
    | some extra =>
      have inner : (rowsFrom db fromHeight)[limit]? = some extra := by
        rw [List.getElem?_take_of_lt (Nat.lt_succ_self limit)] at next
        exact next
      have member : extra ∈ rowsFrom db fromHeight := List.mem_of_getElem? inner
      have below_tip := reached extra member tip last
      have pages : ((rowsFrom db fromHeight).take (limit + 1)).take limit =
          (rowsFrom db fromHeight).take limit := by
        rw [List.take_take, Nat.min_eq_left (Nat.le_succ limit)]
      dsimp only
      rw [pages]
      by_cases split : ((rowsFrom db fromHeight).take limit).getLast?.map EventLogRow.height =
          some extra.height
      · rw [if_pos split, filter_take rising inner]
        by_cases alone : ((rowsFrom db fromHeight).filter fun row =>
            row.height < extra.height).length = 0
        · rw [if_pos alone]
          have whole := rowsAt_eq stored member (List.length_eq_zero_iff.mp alone)
          by_cases final : tip.height ≤ extra.height
          · rw [if_pos final]
            refine Or.inl ⟨rfl, ?_⟩
            have all : ((rowsFrom db fromHeight).filter fun row =>
                (row.height : ℤ) < extra.height + 1) = rowsFrom db fromHeight := by
              refine List.filter_eq_self.mpr fun row found => decide_eq_true ?_
              have low := reached row found tip last
              omega
            dsimp only
            rw [whole, all]
          · rw [if_neg final]
            refine Or.inr ⟨tip, extra.height + 1, rfl, rfl, ?_, by omega, ?_⟩
            · exact lt_of_le_of_lt (from_le extra member) (lt_add_one _)
            · dsimp only
              rw [whole]
        · rw [if_neg alone]
          obtain ⟨row, found⟩ := List.exists_mem_of_length_pos (Nat.pos_of_ne_zero alone)
          obtain ⟨there, less⟩ := List.mem_filter.mp found
          have above := from_le row there
          have low : row.height < extra.height := of_decide_eq_true less
          refine Or.inr ⟨tip, extra.height, rfl, rfl, by omega, by omega, ?_⟩
          dsimp only
          simp only [Int.ofNat_lt]
      · rw [if_neg split]
        have some_shown : (rowsFrom db fromHeight).take limit ≠ [] := by
          intro empty
          rw [List.take_eq_nil_iff] at empty
          rcases empty with zero | none_left
          · omega
          · rw [none_left] at member
            cases member
        obtain ⟨final, ends⟩ : ∃ final,
            ((rowsFrom db fromHeight).take limit).getLast? = some final :=
          ⟨_, List.getLast?_eq_some_getLast some_shown⟩
        have apart : final.height ≠ extra.height := by
          intro same
          rw [ends, Option.map_some, same] at split
          exact split rfl
        have whole := filter_take_self rising inner ends apart
        rw [filter_take rising inner] at whole
        have shown : final ∈ (rowsFrom db fromHeight).take limit := List.mem_of_getLast? ends
        rw [← whole] at shown
        obtain ⟨there, less⟩ := List.mem_filter.mp shown
        have above := from_le final there
        have low : final.height < extra.height := of_decide_eq_true less
        refine Or.inr ⟨tip, extra.height, rfl, rfl, by omega, by omega, ?_⟩
        dsimp only
        simp only [Int.ofNat_lt]
        rw [whole]

/-! ### All pages -/

/-- The pages are those of some rows, in the order of their heights and without a common one. -/
def Whole (rows : List EventLogRow) (pages : List (List EventLogView)) : Prop :=
  pages.flatten = rows.map eventLogView ∧
    pages.Pairwise fun earlier later =>
      ∀ first ∈ earlier, ∀ second ∈ later, first.height < second.height

theorem whole_cons (stored : Stored db) {height : ℤ} (later : fromHeight ≤ height)
    {pages : List (List EventLogView)} (rest : Whole (rowsFrom db height) pages) :
    Whole (rowsFrom db fromHeight)
      (((rowsFrom db fromHeight).filter fun row => row.height < height).map eventLogView ::
        pages) := by
  obtain ⟨joined, apart⟩ := rest
  have parts := split_at_height (rising_rowsFrom stored fromHeight) height
  rw [filter_rowsFrom stored later] at parts
  constructor
  · rw [List.flatten_cons, joined, ← List.map_append, ← parts]
  · refine List.pairwise_cons.mpr ⟨?_, apart⟩
    intro page present first early second late
    obtain ⟨row, below, rfl⟩ := List.mem_map.mp early
    have listed : second ∈ pages.flatten := List.mem_flatten.mpr ⟨page, present, late⟩
    rw [joined] at listed
    obtain ⟨other, there, rfl⟩ := List.mem_map.mp listed
    rw [rowsFrom_eq stored] at there
    have low : (row.height : ℤ) < height := of_decide_eq_true (List.mem_filter.mp below).2
    have high : height ≤ other.height := of_decide_eq_true (List.mem_filter.mp there).2
    exact lt_of_lt_of_le low high

/-- Following the pages from any height ends, with the rows from that height. -/
theorem follows_whole (stored : Stored db) (positive : 1 ≤ limit) (fromHeight : ℤ) :
    ∃ pages, Follows db limit fromHeight pages ∧ Whole (rowsFrom db fromHeight) pages := by
  -- the height to continue from rises and stays at or below the tip
  generalize left : ((db.lastCheckpoint.elim 0 fun tip => (tip.height : ℤ)) + 1 -
    fromHeight).toNat = measure
  induction measure using Nat.strong_induction_on generalizing fromHeight with
  | _ measure inductionHypothesis =>
    rcases @eventsFrom_cut db limit fromHeight stored positive with
      ⟨ended, items⟩ | ⟨tip, height, last, continued, above, below, items⟩
    · refine ⟨[(eventsFrom db fromHeight limit).items], .last ended, ?_, ?_⟩
      · rw [items, List.flatten_singleton]
      · exact List.pairwise_singleton _ _
    · have fewer : ((db.lastCheckpoint.elim 0 fun tip => (tip.height : ℤ)) + 1 - height).toNat <
          measure := by
        rw [← left, last, Option.elim_some]
        omega
      obtain ⟨pages, follows, whole⟩ := inductionHypothesis _ fewer height rfl
      refine ⟨_, .next continued follows, ?_⟩
      rw [items]
      exact whole_cons stored above.le whole

end Page

theorem stored_databaseAfter {runtime : Runtime} (startHeight : ℕ)
    (calls : List (LogCall runtime)) : Stored (databaseAfter startHeight calls) := by
  obtain ⟨blocks, linked, same⟩ := databaseAfter_linked startHeight calls
  rw [same]
  refine ⟨ordered_eventLog linked, ?_⟩
  intro row member
  obtain ⟨checkpoint, present, height⟩ := (integrity_databaseOf linked).logged row member
  have ordered := ordered_checkpoints linked
  rw [lastCheckpoint_databaseOf linked]
  obtain ⟨tip, last⟩ : ∃ tip, (databaseOf runtime blocks).checkpoints.getLast? = some tip :=
    ⟨_, List.getLast?_eq_some_getLast (List.ne_nil_of_mem present)⟩
  refine ⟨tip, last, ?_⟩
  obtain ⟨front, whole⟩ := List.getLast?_eq_some_iff.mp last
  rw [whole] at present ordered
  rcases List.mem_append.mp present with early | final
  · rw [← height]
    exact (Rows.ordered_append.mp ordered).2.2 checkpoint early tip List.mem_cons_self |>.le
  · rw [← height, List.mem_singleton.mp final]

theorem follows_unique {db : IndexerDb} {limit : ℕ} {fromHeight : ℤ}
    {pages others : List (List EventLogView)} (follows : Follows db limit fromHeight pages)
    (again : Follows db limit fromHeight others) : others = pages := by
  induction follows generalizing others with
  | last ended =>
    cases again with
    | last _ => rfl
    | next continued _ =>
      rw [ended] at continued
      cases continued
  | next continued _ inductionHypothesis =>
    cases again with
    | last ended =>
      rw [ended] at continued
      cases continued
    | next other rest =>
      rw [continued] at other
      cases other
      rw [inductionHypothesis rest]

/-- Whatever was called on it, the log is stored in order below its tip; and of every log so stored,
the pages from any height on end, and they are the rows from that height in order, each once, with
no height on two pages. -/
theorem events_paged :
    (∀ (runtime : Runtime) (startHeight : ℕ) (calls : List (LogCall runtime)),
      Stored (databaseAfter startHeight calls)) ∧
    ∀ db, Stored db → ∀ limit, 1 ≤ limit → ∀ fromHeight, ∃ pages,
      Follows db limit fromHeight pages ∧
      (∀ others, Follows db limit fromHeight others → others = pages) ∧
      Whole (rowsFrom db fromHeight) pages := by
  refine ⟨fun runtime startHeight calls => stored_databaseAfter startHeight calls, ?_⟩
  intro db stored limit positive fromHeight
  obtain ⟨pages, follows, whole⟩ := follows_whole stored positive fromHeight
  exact ⟨pages, follows, fun others again => follows_unique follows again, whole⟩

end OpenSocial.Indexer

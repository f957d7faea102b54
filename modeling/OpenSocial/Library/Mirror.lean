/-
This file compares two stores that are kept by different programs under
different keys, such as a contract's map and the query table an indexer projects
from its events.

A correspondence names the entries of both by one index, and says what of a row
and of a record has to agree. It carries the proof that the two keys tell the
same indices apart, so agreement after a write is decided at the index written,
and every other index keeps what it had.
-/

import OpenSocial.Library.Store

namespace Library

/-- How the entries of a table and of a store correspond: the two keys of an index, and the
view of a row and of a record that has to agree. -/
structure Correspondence (Index TableKey StoreKey Row Record View : Type) where
  tableKey : Index → TableKey
  storeKey : Index → StoreKey
  aligned : ∀ first second, tableKey first = tableKey second ↔ storeKey first = storeKey second
  ofRow : Row → View
  ofRecord : Record → View

namespace Correspondence

/-- A table and a store that use the index itself as their key. -/
theorem aligned_id {Key : Type} (first second : Key) :
    id first = id second ↔ id first = id second := Iff.rfl

variable {Index TableKey StoreKey Row Record View : Type} [DecidableEq TableKey]
  [DecidableEq StoreKey] (link : Correspondence Index TableKey StoreKey Row Record View)

/-- At one index both hold the same view, or both hold nothing. -/
def Agrees (table : Store TableKey Row) (store : Store StoreKey Record) (index : Index) : Prop :=
  (table.get (link.tableKey index)).map link.ofRow =
    (store.get (link.storeKey index)).map link.ofRecord

/-- The table mirrors the store: they agree at every index. -/
def Mirrors (table : Store TableKey Row) (store : Store StoreKey Record) : Prop :=
  ∀ index, link.Agrees table store index

variable {link} {table : Store TableKey Row} {store : Store StoreKey Record}
  {index other : Index} {row : Row} {record : Record}

theorem mirrors_empty : link.Mirrors ∅ ∅ := by
  intro index
  rw [Agrees, Store.get_empty, Store.get_empty]
  rfl

/-! ### Agreement at the index written -/

theorem agrees_put (same : link.ofRow row = link.ofRecord record) :
    link.Agrees (table.put (link.tableKey index) row)
      (store.put (link.storeKey index) record) index := by
  rw [Agrees, Store.get_put, Store.get_put, if_pos rfl, if_pos rfl, Option.map_some,
    Option.map_some, same]

theorem agrees_remove :
    link.Agrees (table.remove (link.tableKey index)) (store.remove (link.storeKey index))
      index := by
  rw [Agrees, Store.get_remove, Store.get_remove, if_pos rfl, if_pos rfl]
  rfl

theorem agrees_modify {change : Row → Row} {changed : Record} (update : View → View)
    (agree : link.Agrees table store index)
    (stored : store.get (link.storeKey index) = some record)
    (rowChange : ∀ row, link.ofRow (change row) = update (link.ofRow row))
    (recordChange : link.ofRecord changed = update (link.ofRecord record)) :
    link.Agrees (table.modify (link.tableKey index) change)
      (store.put (link.storeKey index) changed) index := by
  rw [Agrees, stored, Option.map_some, Option.map_eq_some_iff] at agree
  obtain ⟨row, found, view⟩ := agree
  rw [Agrees, Store.get_modify, Store.get_put, if_pos rfl, if_pos rfl, found, Option.map_some,
    Option.map_some, Option.map_some, rowChange, recordChange, view]

/-! ### Agreement at the other indices -/

section Other

variable (different : link.storeKey other ≠ link.storeKey index)

omit [DecidableEq TableKey] [DecidableEq StoreKey] in
include different in
theorem tableKey_ne : link.tableKey other ≠ link.tableKey index := fun same =>
  different ((link.aligned other index).mp same)

include different in
theorem agrees_put_other :
    link.Agrees (table.put (link.tableKey index) row)
        (store.put (link.storeKey index) record) other ↔
      link.Agrees table store other := by
  rw [Agrees, Store.get_put, Store.get_put, if_neg (tableKey_ne different), if_neg different,
    Agrees]

include different in
theorem agrees_remove_other :
    link.Agrees (table.remove (link.tableKey index)) (store.remove (link.storeKey index))
        other ↔
      link.Agrees table store other := by
  rw [Agrees, Store.get_remove, Store.get_remove, if_neg (tableKey_ne different),
    if_neg different, Agrees]

include different in
theorem agrees_modify_other {change : Row → Row} :
    link.Agrees (table.modify (link.tableKey index) change)
        (store.put (link.storeKey index) record) other ↔
      link.Agrees table store other := by
  rw [Agrees, Store.get_modify, Store.get_put, if_neg (tableKey_ne different), if_neg different,
    Agrees]

end Other

/-- Two indices with one store key name one entry, so they agree alike. -/
theorem agrees_congr (same : link.storeKey other = link.storeKey index) :
    link.Agrees table store other ↔ link.Agrees table store index := by
  rw [Agrees, Agrees, same, (link.aligned other index).mpr same]

/-! ### Mirroring is kept -/

namespace Mirrors

variable (mirrors : link.Mirrors table store)

include mirrors in
/-- Writing views that agree keeps the mirror. -/
theorem put (same : link.ofRow row = link.ofRecord record) :
    link.Mirrors (table.put (link.tableKey index) row)
      (store.put (link.storeKey index) record) := by
  intro other
  by_cases equal : link.storeKey other = link.storeKey index
  · exact (agrees_congr equal).mpr (agrees_put same)
  · exact (agrees_put_other equal).mpr (mirrors other)

include mirrors in
/-- Removing one index on both sides keeps the mirror. -/
theorem remove :
    link.Mirrors (table.remove (link.tableKey index)) (store.remove (link.storeKey index)) := by
  intro other
  by_cases equal : link.storeKey other = link.storeKey index
  · exact (agrees_congr equal).mpr agrees_remove
  · exact (agrees_remove_other equal).mpr (mirrors other)

include mirrors in
/-- One update of the view, made to the row and to the record, keeps the mirror. -/
theorem modify {change : Row → Row} {changed : Record} (update : View → View)
    (stored : store.get (link.storeKey index) = some record)
    (rowChange : ∀ row, link.ofRow (change row) = update (link.ofRow row))
    (recordChange : link.ofRecord changed = update (link.ofRecord record)) :
    link.Mirrors (table.modify (link.tableKey index) change)
      (store.put (link.storeKey index) changed) := by
  intro other
  by_cases equal : link.storeKey other = link.storeKey index
  · exact (agrees_congr equal).mpr
      (agrees_modify update (mirrors index) stored rowChange recordChange)
  · exact (agrees_modify_other equal).mpr (mirrors other)

include mirrors in
/-- Updating only what no view shows keeps the mirror. -/
theorem touch (key : TableKey) {change : Row → Row}
    (same : ∀ row, link.ofRow (change row) = link.ofRow row) :
    link.Mirrors (table.modify key change) store := by
  intro other
  have unseen : ∀ found : Option Row, (found.map change).map link.ofRow =
      found.map link.ofRow := by
    intro found
    rw [Option.map_map]
    exact Option.map_congr fun row _ => same row
  rw [Agrees, Store.get_modify]
  split
  · next equal => rw [unseen, ← equal, mirrors other]
  · exact mirrors other

/-- What a mirrored store holds, the table holds. -/
theorem found (mirrors : link.Mirrors table store)
    (stored : store.get (link.storeKey index) = some record) :
    ∃ row, table.get (link.tableKey index) = some row ∧
      link.ofRow row = link.ofRecord record := by
  have agree := mirrors index
  rw [Agrees, stored, Option.map_some, Option.map_eq_some_iff] at agree
  exact agree

/-- What a mirrored store does not hold, the table does not hold. -/
theorem absent (mirrors : link.Mirrors table store)
    (unstored : store.get (link.storeKey index) = none) :
    table.get (link.tableKey index) = none := by
  have agree := mirrors index
  rw [Agrees, unstored, Option.map_none, Option.map_eq_none_iff] at agree
  exact agree

end Mirrors

end Correspondence

end Library

/-
This file gives finite key-value stores the vocabulary a program uses: read a
key, write a key, remove a key, and total a quantity over every stored entry.

The carrier is Mathlib's `Finmap`, so two stores with the same reads are equal
and every store has finitely many entries. Reads after writes are stated once,
as one conditional per write, and the total over all entries is split at a key,
which is the only fact an accounting argument needs.
-/

import Mathlib

namespace Library

/-- A finite map from keys to records. -/
abbrev Store (Key Record : Type) := Finmap fun _ : Key => Record

namespace Store

variable {Key Record : Type} [DecidableEq Key]

/-- The record stored under a key. -/
def get (store : Store Key Record) (key : Key) : Option Record :=
  Finmap.lookup key store

/-- Write a record under a key, replacing what was there. -/
def put (store : Store Key Record) (key : Key) (record : Record) : Store Key Record :=
  Finmap.insert key record store

/-- Remove a key. -/
def remove (store : Store Key Record) (key : Key) : Store Key Record :=
  Finmap.erase key store

/-- Whether a key is present. -/
def has (store : Store Key Record) (key : Key) : Bool :=
  (store.get key).isSome

/-! ### Reads after writes -/

@[simp] theorem get_empty (key : Key) : (∅ : Store Key Record).get key = none :=
  Finmap.lookup_empty key

@[simp] theorem get_put (store : Store Key Record) (key other : Key) (record : Record) :
    (store.put key record).get other = if other = key then some record else store.get other := by
  unfold get put
  split
  · next same => rw [same, Finmap.lookup_insert]
  · next different => rw [Finmap.lookup_insert_of_ne _ different]

@[simp] theorem get_remove (store : Store Key Record) (key other : Key) :
    (store.remove key).get other = if other = key then none else store.get other := by
  unfold get remove
  split
  · next same => rw [same, Finmap.lookup_erase]
  · next different => rw [Finmap.lookup_erase_ne different]

@[simp] theorem has_eq_true (store : Store Key Record) (key : Key) :
    store.has key = true ↔ ∃ record, store.get key = some record := by
  rw [has, Option.isSome_iff_exists]

@[simp] theorem has_eq_false (store : Store Key Record) (key : Key) :
    store.has key = false ↔ store.get key = none := by
  rw [has, Option.isSome_eq_false_iff, Option.isNone_iff_eq_none]

/-- Stores with the same reads are equal. -/
theorem ext_get {first second : Store Key Record}
    (same : ∀ key, first.get key = second.get key) : first = second :=
  Finmap.ext_lookup same

theorem put_remove_self (store : Store Key Record) (key : Key) (record : Record) :
    (store.remove key).put key record = store.put key record := by
  refine ext_get fun other => ?_
  simp only [get_put, get_remove]
  split <;> rfl

/-- Writing back what a key already holds changes nothing. -/
theorem put_get_self (store : Store Key Record) (key : Key) (record : Record)
    (stored : store.get key = some record) : store.put key record = store := by
  refine ext_get fun other => ?_
  rw [get_put]
  split
  · next same => rw [same, stored]
  · rfl

theorem remove_of_get_eq_none (store : Store Key Record) (key : Key)
    (absent : store.get key = none) : store.remove key = store := by
  refine ext_get fun other => ?_
  rw [get_remove]
  split
  · next same => rw [same, absent]
  · rfl

/-! ### Conditional writes -/

/-- Change the record under a key, if there is one. -/
def modify (store : Store Key Record) (key : Key) (change : Record → Record) : Store Key Record :=
  match store.get key with
  | none => store
  | some record => store.put key (change record)

/-- Write a record under a key that is free; a taken key keeps its record. -/
def putNew (store : Store Key Record) (key : Key) (record : Record) : Store Key Record :=
  match store.get key with
  | none => store.put key record
  | some _ => store

/-- Keep only the entries that satisfy a predicate. -/
def keep (store : Store Key Record) (wanted : Key → Record → Bool) : Store Key Record where
  entries := store.entries.filter fun entry => wanted entry.1 entry.2
  nodupKeys := by
    obtain ⟨entries, distinct⟩ := store
    induction entries using Quotient.inductionOn with
    | h entries => exact List.NodupKeys.sublist List.filter_sublist distinct

@[simp] theorem get_modify (store : Store Key Record) (key other : Key)
    (change : Record → Record) :
    (store.modify key change).get other =
      if other = key then (store.get key).map change else store.get other := by
  unfold modify
  split
  · next absent =>
    split
    · next same => rw [same, absent, Option.map_none]
    · rfl
  · next record present => rw [get_put, present, Option.map_some]

theorem putNew_of_get_eq_none (store : Store Key Record) (key : Key) (record : Record)
    (absent : store.get key = none) : store.putNew key record = store.put key record := by
  rw [putNew, absent]

/-- Two changes of one record are one change. -/
theorem modify_modify (store : Store Key Record) (key : Key) (first second : Record → Record) :
    (store.modify key first).modify key second = store.modify key fun record =>
      second (first record) := by
  refine ext_get fun other => ?_
  simp only [get_modify, if_true]
  split
  · rw [Option.map_map]
    rfl
  · rfl

theorem mem_entries_iff (store : Store Key Record) (key : Key) (record : Record) :
    (⟨key, record⟩ : Sigma fun _ : Key => Record) ∈ store.entries ↔
      store.get key = some record :=
  Finmap.lookup_eq_some_iff.symm

@[simp] theorem get_keep (store : Store Key Record) (wanted : Key → Record → Bool) (key : Key) :
    (store.keep wanted).get key = (store.get key).filter (wanted key) := by
  refine Option.ext fun record => ?_
  rw [← mem_entries_iff, Option.filter_eq_some_iff, ← mem_entries_iff]
  exact Multiset.mem_filter

/-! ### Totals over every entry -/

section Total

variable {Amount : Type} [AddCommMonoid Amount]

/-- The sum of a quantity over every stored entry. -/
def total (store : Store Key Record) (amount : Key → Record → Amount) : Amount :=
  (store.entries.map fun entry => amount entry.1 entry.2).sum

/-- Writing a record replaces whatever the key contributed by the record's own amount. -/
theorem total_put (store : Store Key Record) (amount : Key → Record → Amount) (key : Key)
    (record : Record) :
    (store.put key record).total amount = amount key record + (store.remove key).total amount := by
  rw [← put_remove_self]
  unfold total put remove
  rw [Finmap.entries_insert_of_notMem Finmap.notMem_erase_self, Multiset.map_cons,
    Multiset.sum_cons]

/-- A total splits into one key's amount and the total without that key. -/
theorem total_eq_get_add_remove (store : Store Key Record) (amount : Key → Record → Amount)
    (key : Key) :
    store.total amount = (store.get key).elim 0 (amount key) + (store.remove key).total amount := by
  cases stored : store.get key with
  | none => rw [remove_of_get_eq_none store key stored, Option.elim_none, zero_add]
  | some record =>
    conv_lhs => rw [← put_get_self store key record stored]
    rw [total_put, Option.elim_some]

omit [DecidableEq Key] in
theorem total_add (store : Store Key Record) (first second : Key → Record → Amount) :
    store.total (fun key record => first key record + second key record) =
      store.total first + store.total second := by
  unfold total
  exact Multiset.sum_map_add

/-- Totals are monotone in the quantity. -/
theorem total_le_total [PartialOrder Amount] [IsOrderedAddMonoid Amount]
    (store : Store Key Record) (first second : Key → Record → Amount)
    (below : ∀ key record, store.get key = some record → first key record ≤ second key record) :
    store.total first ≤ store.total second := by
  unfold total
  refine Multiset.sum_map_le_sum_map _ _ fun entry member => ?_
  exact below entry.1 entry.2 ((mem_entries_iff store entry.1 entry.2).mp member)

end Total

/-- One stored amount is at most the total. -/
theorem le_total (store : Store Key Record) (amount : Key → Record → ℕ) (key : Key)
    (record : Record) (stored : store.get key = some record) :
    amount key record ≤ store.total amount := by
  rw [total_eq_get_add_remove store amount key, stored, Option.elim_some]
  exact Nat.le_add_right _ _

end Store

end Library

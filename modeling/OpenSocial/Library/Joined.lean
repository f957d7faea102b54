/-
This file keeps records of pairs of lists under one key, the two lists put together.

The calls of a machine store records of some pairs and remove those of others. Whoever
writes keeps to pairs that their keys tell apart, for instance because one of the two
lists has a fixed length; whoever reads may split a key elsewhere, and then gets the
record of another pair. The reads that cannot are those for which no kept pair has the
same key.
-/

import OpenSocial.Library.Machine

namespace Library

variable {State Call Output Failure Letter : Type}

/-- How the calls of a machine keep records of pairs, and under which keys a state has one. -/
structure Joined (machine : Machine State Call Output Failure) (Letter : Type) where
  stores : machine.Accepted → Option (List Letter × List Letter)
  removes : machine.Accepted → List (List Letter × List Letter)
  present : State → List Letter → Bool

namespace Joined

variable [DecidableEq Letter] {machine : Machine State Call Output Failure}
  (joined : Joined machine Letter)

/-- The pairs kept after one more accepted call. -/
def keep (kept : List (List Letter × List Letter)) (entry : machine.Accepted) :
    List (List Letter × List Letter) :=
  (joined.stores entry).toList ++ kept.filter fun pair => pair ∉ joined.removes entry

/-- The pairs with a record: stored by an accepted call and not removed since. -/
def kept (history : List machine.Accepted) : List (List Letter × List Letter) :=
  history.foldl joined.keep []

/-- What one call does to the keys. -/
def Steps (entry : machine.Accepted) : Prop :=
  ∀ key, joined.present entry.after key = true ↔
    (∃ pair, joined.stores entry = some pair ∧ pair.1 ++ pair.2 = key) ∨
      joined.present entry.before key = true ∧
        ∀ pair ∈ joined.removes entry, pair.1 ++ pair.2 ≠ key

/-- The calls keep to pairs told apart by their keys, and a state has what was kept. -/
structure Sound (whole : List Letter × List Letter → Prop) : Prop where
  apart : ∀ first second, whole first → whole second →
    first.1 ++ first.2 = second.1 ++ second.2 → first = second
  initial : ∀ key, joined.present machine.initial key = false
  stored : ∀ entry pair, joined.stores entry = some pair → whole pair
  removed : ∀ entry, ∀ pair ∈ joined.removes entry, whole pair
  step : ∀ entry, joined.Steps entry

/-- A read answers only if a record was stored for exactly the pair it is asked for. -/
def AnswersOnly (read : State → List Letter → List Letter → Bool) (calls : List Call)
    (first second : List Letter) : Prop :=
  read (machine.final machine.initial calls) first second = true →
    ∃ entry ∈ machine.history machine.initial calls, joined.stores entry = some (first, second)

/-- A list is empty, or no other pair with a record has the same key. -/
def Undisturbed (calls : List Call) (first second : List Letter) : Prop :=
  first = [] ∨ second = [] ∨ ∀ pair ∈ joined.kept (machine.history machine.initial calls),
    pair.1 ++ pair.2 = first ++ second → pair = (first, second)

variable {joined}

theorem kept_concat (history : List machine.Accepted) (entry : machine.Accepted) :
    joined.kept (history ++ [entry]) = joined.keep (joined.kept history) entry := by
  rw [kept, List.foldl_append, List.foldl_cons, List.foldl_nil]
  rfl

theorem mem_keep {kept : List (List Letter × List Letter)} {entry : machine.Accepted}
    {pair : List Letter × List Letter} :
    pair ∈ joined.keep kept entry ↔
      joined.stores entry = some pair ∨ pair ∈ kept ∧ pair ∉ joined.removes entry := by
  rw [keep, List.mem_append, Option.mem_toList, List.mem_filter, decide_eq_true_eq]

/-- What is kept was stored. -/
theorem stored_of_kept {history : List machine.Accepted} {pair : List Letter × List Letter}
    (member : pair ∈ joined.kept history) : ∃ entry ∈ history, joined.stores entry = some pair := by
  induction history using List.reverseRecOn with
  | nil => cases member
  | append_singleton history entry inductionHypothesis =>
    rw [kept_concat, mem_keep] at member
    rcases member with last | ⟨earlier, _⟩
    · exact ⟨entry, List.mem_append_right _ List.mem_cons_self, last⟩
    · obtain ⟨other, found, stored⟩ := inductionHypothesis earlier
      exact ⟨other, List.mem_append_left _ found, stored⟩

/-! ### Single calls -/

section Calls

variable {entry : machine.Accepted}

omit [DecidableEq Letter] in
theorem steps_same (stores : joined.stores entry = none) (removes : joined.removes entry = [])
    (same : ∀ key, joined.present entry.after key = joined.present entry.before key) :
    joined.Steps entry := by
  intro key
  rw [stores, removes, same]
  constructor
  · exact fun present => .inr ⟨present, fun _ member => absurd member List.not_mem_nil⟩
  · rintro (⟨_, impossible, _⟩ | ⟨present, _⟩)
    · cases impossible
    · exact present

theorem steps_put {pair : List Letter × List Letter} (stores : joined.stores entry = some pair)
    (removes : joined.removes entry = [])
    (put : ∀ key, joined.present entry.after key =
      if key = pair.1 ++ pair.2 then true else joined.present entry.before key) :
    joined.Steps entry := by
  intro key
  rw [stores, removes, put]
  split
  · next same => exact ⟨fun _ => .inl ⟨pair, rfl, same.symm⟩, fun _ => rfl⟩
  · next other =>
    constructor
    · exact fun present => .inr ⟨present, fun _ member => absurd member List.not_mem_nil⟩
    · rintro (⟨_, found, same⟩ | ⟨present, _⟩)
      · exact absurd (Option.some.inj found ▸ same.symm) other
      · exact present

omit [DecidableEq Letter] in
theorem steps_removed {pairs : List (List Letter × List Letter)}
    (stores : joined.stores entry = none) (removes : joined.removes entry = pairs)
    (removed : ∀ key, joined.present entry.after key = true ↔
      joined.present entry.before key = true ∧ ∀ pair ∈ pairs, pair.1 ++ pair.2 ≠ key) :
    joined.Steps entry := by
  intro key
  rw [stores, removes, removed]
  constructor
  · exact .inr
  · rintro (⟨_, impossible, _⟩ | present)
    · cases impossible
    · exact present

end Calls

/-! ### Runs -/

section Runs

variable {whole : List Letter × List Letter → Prop} (sound : joined.Sound whole)

include sound

/-- The keys a state has are those of the pairs that are kept. -/
theorem present_iff (calls : List Call) (key : List Letter) :
    joined.present (machine.final machine.initial calls) key = true ↔
      ∃ pair ∈ joined.kept (machine.history machine.initial calls), pair.1 ++ pair.2 = key := by
  have known := machine.run_induction machine.initial
    (fun history state => (∀ pair ∈ joined.kept history, whole pair) ∧
      ∀ key, joined.present state key = true ↔
        ∃ pair ∈ joined.kept history, pair.1 ++ pair.2 = key) ?_ ?_ calls
  · exact known.2 key
  · refine ⟨fun _ member => absurd member List.not_mem_nil, fun key => ?_⟩
    rw [sound.initial]
    constructor
    · intro present
      cases present
    · rintro ⟨pair, member, _⟩
      cases member
  · rintro history entry ⟨those, keys⟩
    have wholes : ∀ pair ∈ joined.kept (history ++ [entry]), whole pair := by
      intro pair member
      rw [kept_concat, mem_keep] at member
      rcases member with last | ⟨earlier, _⟩
      · exact sound.stored entry pair last
      · exact those pair earlier
    refine ⟨wholes, fun key => ?_⟩
    rw [sound.step entry key, keys, kept_concat]
    constructor
    · rintro (⟨pair, stored, same⟩ | ⟨⟨pair, member, same⟩, others⟩)
      · exact ⟨pair, mem_keep.mpr (.inl stored), same⟩
      · refine ⟨pair, mem_keep.mpr (.inr ⟨member, fun removed => ?_⟩), same⟩
        exact others pair removed same
    · rintro ⟨pair, member, same⟩
      rcases mem_keep.mp member with stored | ⟨earlier, here⟩
      · exact .inl ⟨pair, stored, same⟩
      · refine .inr ⟨⟨pair, earlier, same⟩, fun other removed clash => ?_⟩
        have equal := sound.apart other pair (sound.removed entry other removed)
          (those pair earlier) (clash.trans same.symm)
        exact here (equal ▸ removed)

/-- A read answers only for the pair asked exactly if no other pair's key disturbs it. -/
theorem answersOnly_iff {read : State → List Letter → List Letter → Bool}
    (reads : ∀ state first second, read state first second = true ↔
      ¬ (first = [] ∨ second = []) ∧ joined.present state (first ++ second) = true)
    (calls : List Call) (first second : List Letter) :
    joined.AnswersOnly read calls first second ↔ joined.Undisturbed calls first second := by
  unfold AnswersOnly Undisturbed
  rw [reads, present_iff sound]
  constructor
  · intro only
    by_cases empty : first = [] ∨ second = []
    · exact empty.imp_right .inl
    · refine .inr (.inr fun pair member same => ?_)
      obtain ⟨entry, _, stored⟩ := only ⟨empty, pair, member, same⟩
      obtain ⟨other, _, earlier⟩ := stored_of_kept member
      exact sound.apart _ _ (sound.stored other pair earlier) (sound.stored entry _ stored) same
  · rintro undisturbed ⟨present, pair, member, same⟩
    rcases undisturbed with empty | empty | others
    · exact absurd (.inl empty) present
    · exact absurd (.inr empty) present
    · obtain ⟨entry, found, stored⟩ := stored_of_kept member
      rw [others pair member same] at stored
      exact ⟨entry, found, stored⟩

/-- A pair of the kind that is stored is never disturbed. -/
theorem undisturbed_of_whole {first second : List Letter} (kind : whole (first, second))
    (calls : List Call) : joined.Undisturbed calls first second := by
  refine .inr (.inr fun pair member same => ?_)
  obtain ⟨entry, _, stored⟩ := stored_of_kept member
  exact sound.apart _ _ (sound.stored entry pair stored) kind same

end Runs

end Joined

end Library
